import CallCheck.Call.Error
import CallCheck.Call.Target
import CallCheck.Files
import CallCheck.Schema.Binary
import CallCheck.Schema.Source.Compile

/-!
# Resolving targets

Loading a schema from where it is kept, and finding the method that a target names in it.
-/

namespace CallCheck

namespace Schema

open Call (Error Target)

/-- The path that requests for a method go to. -/
def Method.path (m : Method) : Except Error String :=
  match Call.requestPath? s!"/{m.service.full}/{m.name}" with
  | some path => .ok path
  | none => .error (.invalidTarget m.fullName .noPath)

namespace Pool

/-- The method that a target names. -/
def lookup (p : Pool) (t : Target) : Except Error Method :=
  match p.service? t.service with
  | none =>
    if (p.message? t.service).isSome || (p.enum? t.service).isSome || p.hasExtension t.service
    then .error (.notAService t.service) else .error (.symbolNotFound t.service)
  | some s =>
    match s.methods.find? fun m ↦ m.name == t.method with
    | some m => .ok m
    | none => .error (.methodNotFound t.service t.method)

/-- The method that a text names. -/
def method (p : Pool) (target : String) : Except Error Method := do p.lookup (← Target.parse target)

/-- The pool that the bytes of a descriptor set describe. -/
def ofBytes (origin : String) (bytes : List UInt8) : Except Error Pool :=
  match readFiles? bytes with
  | none => .error (.schema origin "the bytes are no descriptor set")
  | some files =>
    match link files with
    | .ok p => .ok p
    | .error fault => .error (.schema origin fault.message)

/-- The pool of a descriptor set in a file. -/
def ofDescriptorSet (files : Files) (path : String) : Except Error Pool :=
  match files.bytes? path with
  | none => .error (.schema path "the file cannot be read")
  | some bytes => ofBytes path bytes

/-- The pool that sources make up. -/
def ofSources (files : Files) (sources includes : List String) : Except Error Pool :=
  match Source.pool files sources includes with
  | .ok p => .ok p
  | .error fault => .error (.schema (", ".intercalate sources) fault.message)

end Pool

/-- Where a schema comes from. -/
inductive Origin
  /-- Source files, and the paths that they import others from. -/
  | sources (paths includes : List String)
  /-- A file with a descriptor set. -/
  | descriptorSet (path : String)
  /-- The server itself. -/
  | reflection
  deriving DecidableEq, Repr

/-- The pool from an origin for which no connection is needed. -/
def Origin.load (files : Files) : Origin → Except Error Pool
  | .sources paths includes => Pool.ofSources files paths includes
  | .descriptorSet path => Pool.ofDescriptorSet files path
  | .reflection => .error (.invalidConfig .noConnection)

/-- The paths at which files of an origin can be, as far as the files at hand tell. -/
def Origin.paths (files : Files) : Origin → List String
  | .sources given includes => Source.paths files given includes
  | .descriptorSet path => [path]
  | .reflection => []

/-- The method that a text names in the schema from an origin. The text is read first. -/
def resolve (files : Files) (target : String) (origin : Origin) : Except Error Method := do
  let t ← Target.parse target
  let p ← origin.load files
  p.lookup t

end Schema

end CallCheck

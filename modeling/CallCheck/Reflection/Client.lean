import CallCheck.Call.Resolve
import CallCheck.Reflection.Closure
import CallCheck.Reflection.Order

/-!
# Schemas by reflection

The schema of one service is put together from what the server says: the file that declares the
service, the files that it imports, and so on. Servers differ in the names under which they know
a method, so the service is looked for by its own name first and then by two names of the method.
-/

namespace CallCheck.Reflection

open Call (Error Status StatusCode Target)
open Schema (FileDecl Pool)

/-- The names of the services that a server has. -/
def askServices (server : Server) : Asking (List String) := do
  match ← ask server .services with
  | .services names => return names
  | reply => throw (unexpected reply)

/-- The files that a server answers with when it is asked for a symbol; none if it has no such
symbol. -/
def askSymbol? (server : Server) (name : String) : Asking (Option (List FileDecl)) := fun asked ↦
  match ask server (.symbol name) asked with
  | (.ok (.files encoded), asked) => ((decodeFiles encoded).map some, asked)
  | (.ok (.error _ _), asked) => (.ok none, asked)
  | (.ok reply, asked) => (.error (unexpected reply), asked)
  | (.error (.status status), asked) =>
    (if status.code = .notFound then .ok none else .error (.status status), asked)
  | (.error e, asked) => (.error e, asked)

/-- The names under which a server may know the service of a target. -/
def spellings (t : Target) : List String :=
  [t.service, s!"{t.service}.{t.method}", s!"{t.service}/{t.method}"]

/-- The files for the first of some names that a server knows. -/
def askFirst? (server : Server) : List String → Asking (Option (List FileDecl))
  | [] => return none
  | name :: rest => do
    match ← askSymbol? server name with
    | some files => return some files
    | none => askFirst? server rest

/-- A pool with one more file. -/
def addFile (pool : Pool) (f : FileDecl) : Except Error Pool :=
  match pool.add [f] with
  | .ok pool => .ok pool
  | .error fault => .error (.schema s!"reflection file `{f.name}`" fault.message)

/-- The error that a file imports itself in a roundabout way. -/
def importCycle (name : String) : Error :=
  .schema "reflection" s!"import cycle through `{name}`"

/-- The pool of files, each added after its imports. -/
def linkFiles (files : List FileDecl) : Except Error Pool :=
  match dependencyOrder files with
  | .error name => .error (importCycle name)
  | .ok ordered => ordered.foldlM addFile {}

/-- The pool with the service of a target and everything that it needs. -/
def loadPool (server : Server) (t : Target) : Asking Pool := do
  match ← askFirst? server (spellings t) with
  | none => throw (.symbolNotFound s!"{t.service}/{t.method}")
  | some files => linkFiles (← complete server files)

end CallCheck.Reflection

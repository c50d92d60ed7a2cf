import CallCheck.Files
import CallCheck.Schema.Source.Read

/-!
# Compiling schema sources

Sources name each other relative to include paths. The name of a source is its path from the first
include path that it lies in, and that name must lead back to it. Compiling a source compiles its
imports first, so files come out with every file after its imports.
-/

namespace CallCheck.Schema.Source

/-- Why sources cannot be compiled. -/
inductive CompileFault
  /-- A source is not there. -/
  | missing (path : String)
  /-- Another file comes first under the name of a source. -/
  | shadowed (path other : String)
  /-- A source is malformed. -/
  | malformed (name : String)
  /-- Sources import each other. -/
  | cycle (name : String)
  /-- The declarations do not fit together. -/
  | link (fault : LinkFault)
  deriving DecidableEq, Repr

/-- What is said about a fault. -/
def CompileFault.message : CompileFault → String
  | .missing path => s!"file `{path}` not found"
  | .shadowed path other => s!"path `{path}` is shadowed by `{other}`"
  | .malformed name => s!"file `{name}` is malformed"
  | .cycle name => s!"files import each other through `{name}`"
  | .link fault => fault.message

/-- What is left of a list after a beginning. -/
def after? (beginning parts : List String) : Option (List String) :=
  if beginning.isPrefixOf parts then some (parts.drop beginning.length) else none

/-- The name of a path under an include path. -/
def nameUnder? (path root : String) : Option String :=
  if isAbsolute path == isAbsolute root then
    (after? (pathParts root) (pathParts path)).bind fun parts ↦
      if parts.isEmpty || parts.contains ".." then none else some ("/".intercalate parts)
  else none

/-- The path of the first file of a name under the include paths. -/
def locate? (files : Files) (includes : List String) (name : String) : Option String :=
  (includes.map (joinPath · name)).find? fun path ↦ (files.bytes? path).isSome

/-- The include paths that are meant when none are given: the directories of the sources. -/
def defaultIncludes (sources : List String) : List String :=
  (sources.map parentPath).foldl
    (fun done d ↦ if done.any (samePath · d) then done else done ++ [d]) []

/-- The file of a name with its imports before it, after those already compiled. The bound is on
the number of names that import each other in a row, which stand in `pending`. -/
def compileName (files : Files) (includes : List String) :
    Nat → List String → List FileDecl → String → Except CompileFault (List FileDecl)
  | 0, _, _, name => .error (.cycle name)
  | bound + 1, pending, done, name =>
    if done.any (·.name == name) then .ok done
    else if pending.contains name then .error (.cycle name)
    else
      match locate? files includes name with
      | none => .error (.missing name)
      | some path =>
        match (files.text? path).bind (file? name) with
        | none => .error (.malformed name)
        | some f => do
          let done ← f.imports.foldlM (compileName files includes bound (name :: pending)) done
          return done ++ [f]

/-- The name of a source that is asked for by path. A path under no include path is itself a
name. -/
def sourceName (files : Files) (includes : List String) (path : String) :
    Except CompileFault String :=
  match includes.findSome? (nameUnder? path) with
  | none => .ok ("/".intercalate (pathParts path))
  | some name =>
    match locate? files includes name with
    | none => .error (.missing path)
    | some other => if samePath other path then .ok name else .error (.shadowed path other)

/-- A bound on how many names can import each other in a row: every name is written in a file. -/
def importBound (files : Files) : Nat :=
  files.entries.foldl (fun n (_, bytes) ↦ n + 1 + bytes.length) 1

/-- The files that sources declare, with their imports. -/
def compile (files : Files) (sources includes : List String) :
    Except CompileFault (List FileDecl) :=
  let includes := if includes.isEmpty then defaultIncludes sources else includes
  sources.foldlM (fun done path ↦ do
    let name ← sourceName files includes path
    compileName files includes (importBound files) [] done name) []

/-- The paths at which sources and what they import can be, as far as the files at hand tell. -/
def paths (files : Files) (sources includes : List String) : List String :=
  let includes := if includes.isEmpty then defaultIncludes sources else includes
  let named := sources.filterMap fun path ↦ includes.findSome? (nameUnder? path)
  let imported := files.entries.flatMap fun (path, _) ↦
    (((files.text? path).bind (file? path)).map (·.imports)).getD []
  sources ++ includes.flatMap fun root ↦ (sources ++ named ++ imported).map (joinPath root)

/-- The pool that sources make up. -/
def pool (files : Files) (sources includes : List String) : Except CompileFault Pool := do
  let compiled ← compile files sources includes
  match link compiled with
  | .ok p => return p
  | .error fault => .error (.link fault)

end CallCheck.Schema.Source

import CallCheck.Text.Utf8

/-!
# Files

What can be read while a run is prepared: files by path. Paths that differ in dots and doubled
slashes only are one path.
-/

namespace CallCheck

/-- The parts of a path between its slashes, those left out that lead nowhere. -/
def pathParts (path : String) : List String :=
  let rec go (part : List Char) : List Char → List (List Char)
    | [] => [part.reverse]
    | '/' :: rest => part.reverse :: go [] rest
    | c :: rest => go (c :: part) rest
  ((go [] path.toList).map String.ofList).filter fun p ↦ p != "" && p != "."

/-- Whether a path starts at the root. -/
def isAbsolute (path : String) : Bool := path.toList.head? == some '/'

/-- The parts of a path with every step up taken. -/
def stepUp (parts : List String) : List String :=
  (parts.foldl (fun done p ↦
    match p, done with
    | "..", d :: rest => if d = ".." then ".." :: done else rest
    | _, _ => p :: done) []).reverse

/-- Whether two paths lead to the same place. -/
def samePath (p q : String) : Bool :=
  isAbsolute p == isAbsolute q && stepUp (pathParts p) == stepUp (pathParts q)

/-- A path inside a directory. -/
def joinPath (directory path : String) : String :=
  if directory.isEmpty || isAbsolute path then path else directory ++ "/" ++ path

/-- The directory that a path is in; a path without slashes is in the current one. -/
def parentPath (path : String) : String :=
  match (path.toList.reverse.dropWhile (· == '/')).dropWhile (· != '/') with
  | [] => "."
  | ['/'] => "/"
  | cs => String.ofList (cs.dropWhile (· == '/')).reverse

/-- Files by path. -/
structure Files where
  /-- The paths with the bytes that are there. -/
  entries : List (String × List UInt8) := []
  deriving Repr

namespace Files

/-- The bytes of the file at a path, if there is one. -/
def bytes? (files : Files) (path : String) : Option (List UInt8) :=
  if path.toList.getLast? == some '/' then none
  else (files.entries.find? fun f ↦ samePath f.1 path).map (·.2)

/-- The text of the file at a path, if there is one and it is UTF-8. -/
def text? (files : Files) (path : String) : Option String :=
  (files.bytes? path).bind Text.Utf8.decode?

end Files

end CallCheck

/-!
# Method targets and request paths

A target names a method of a service, as `package.Service.Method` or `package.Service/Method`.
One dot or slash in front is ignored. A target with a slash is cut there, one without at its last
dot. A request goes to the path and query of an address.
-/

namespace CallCheck.Call

/-- A method to call, by the names of its service and itself. -/
structure Target where
  /-- The name of the service, its package included. -/
  service : String
  /-- The name of the method. -/
  method : String
  deriving DecidableEq, Repr

/-- Why a text is no target. -/
inductive TargetFault
  /-- Nothing is left after the separator in front. -/
  | empty
  /-- There is no separator. -/
  | noSeparator
  /-- There is more than one slash. -/
  | manySlashes
  /-- Nothing stands before the separator. -/
  | noService
  /-- Nothing stands after the separator. -/
  | noMethod
  /-- The names do not make a request path. -/
  | noPath
  deriving DecidableEq, Repr

/-- What is said about a fault. -/
def TargetFault.message : TargetFault → String
  | .empty => "empty target"
  | .noSeparator => "expected `service.method` or `service/method`"
  | .manySlashes => "more than one `/` separator"
  | .noService => "missing service name"
  | .noMethod => "missing method name"
  | .noPath => "not a valid request path"

namespace Target

/-- How a target is shown. -/
def text (t : Target) : String := t.service ++ "." ++ t.method

/-- The text without one dot or slash in front. -/
def stripLead : List Char → List Char
  | '.' :: cs => cs
  | '/' :: cs => cs
  | cs => cs

/-- What stands before the first `c`, and what after it. -/
def cutFirst (c : Char) : List Char → Option (List Char × List Char)
  | [] => none
  | a :: rest =>
    if a = c then some ([], rest)
    else (cutFirst c rest).map fun (before, after) ↦ (a :: before, after)

/-- What stands before the last `c`, and what after it. -/
def cutLast (c : Char) (cs : List Char) : Option (List Char × List Char) :=
  (cutFirst c cs.reverse).map fun (after, before) ↦ (before.reverse, after.reverse)

/-- The two parts of a text around the separator that counts. -/
def cut (cs : List Char) : Except TargetFault (List Char × List Char) :=
  match cs.count '/' with
  | 0 => (cutLast '.' cs).elim (.error .noSeparator) .ok
  | 1 => (cutFirst '/' cs).elim (.error .noSeparator) .ok
  | _ => .error .manySlashes

/-- The target that a text names. -/
def ofChars (cs : List Char) : Except TargetFault Target :=
  let cs := stripLead cs
  if cs.isEmpty then .error .empty
  else
    match cut cs with
    | .error fault => .error fault
    | .ok (service, method) =>
      if service.isEmpty then .error .noService
      else if method.isEmpty then .error .noMethod
      else .ok ⟨String.ofList service, String.ofList method⟩

end Target

/-! ## Request paths -/

/-- A character that may stand in a path. -/
def isPathChar (c : Char) : Bool :=
  let n := c.toNat
  n == 0x21 || n == 0x22 || (0x24 ≤ n && n ≤ 0x3b) || n == 0x3d || (0x40 ≤ n && n ≤ 0x5f) ||
    (0x61 ≤ n && n ≤ 0x7e) || 0x7f ≤ n

/-- A character that may stand in a query. -/
def isQueryChar (c : Char) : Bool :=
  let n := c.toNat
  n == 0x21 || (0x24 ≤ n && n ≤ 0x3b) || n == 0x3d || 0x3f ≤ n

/-- The path and query that a text writes. What follows the sign `#` is left out. -/
def requestPath? (s : String) : Option String :=
  let kept := s.toList.takeWhile (· != '#')
  let path := kept.takeWhile (· != '?')
  let query := (kept.dropWhile (· != '?')).drop 1
  if path.all isPathChar && query.all isQueryChar then some (String.ofList kept) else none

end CallCheck.Call

import CallCheck.Numeric.Binary

/-!
# JSON documents

A document as a tree. The members of an object are kept as a list: a reader leaves them in the
order of the text, a repeated key included. `Json.canonical` is the form that most uses want, with
the members sorted by key and the last of equal keys kept.
-/

namespace CallCheck

/-- A JSON number: an integer, or a number written with a fraction, an exponent or more digits than
64 bits hold. -/
inductive Json.Number
  /-- An integer. -/
  | int (i : Int)
  /-- Any other number. -/
  | real (x : Numeric.Binary64)
  deriving DecidableEq, Repr

/-- A JSON document. -/
inductive Json
  | null
  | bool (b : Bool)
  | number (n : Json.Number)
  | string (s : String)
  | array (items : List Json)
  | object (members : List (String × Json))
  deriving Repr, Inhabited

namespace Json

/-- An integer. -/
abbrev int (i : Int) : Json := .number (.int i)

/-- The value of the last member with a key. -/
def lookup (key : String) : List (String × Json) → Option Json
  | [] => none
  | (k, v) :: rest => (lookup key rest).or (if k = key then some v else none)

/-- The members sorted by key with one more put in its place; it replaces a member of its key. -/
def insertMember (key : String) (value : Json) : List (String × Json) → List (String × Json)
  | [] => [(key, value)]
  | (k, v) :: rest =>
    if key < k then (key, value) :: (k, v) :: rest
    else if k = key then (key, value) :: rest
    else (k, v) :: insertMember key value rest

mutual

/-- The document with the members of every object sorted by key, one for each key: the last. -/
def canonical : Json → Json
  | .array items => .array (canonicalItems items)
  | .object members => .object (canonicalMembers members [])
  | j => j

/-- The items of an array, each in canonical form. -/
def canonicalItems : List Json → List Json
  | [] => []
  | j :: rest => j.canonical :: canonicalItems rest

/-- The members of an object, each in canonical form and put among those before it. -/
def canonicalMembers : List (String × Json) → List (String × Json) → List (String × Json)
  | [], done => done
  | (k, v) :: rest, done => canonicalMembers rest (insertMember k v.canonical done)

end

/-- A document whose members are put in canonical order. -/
def ofMembers (members : List (String × Json)) : Json :=
  .object (members.foldl (fun done m ↦ insertMember m.1 m.2 done) [])

end Json

end CallCheck

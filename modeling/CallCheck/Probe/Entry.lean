import CallCheck.Json.Read
import CallCheck.Json.Write

/-!
# Entries

One call of a collection, with what is expected of its answer and what is kept from it.
-/

namespace CallCheck.Probe

/-- A call to make. -/
structure Entry where
  /-- What the entry is called in the report. -/
  name : String
  /-- The host, if it is not the one of the run. -/
  url : Option String := none
  /-- The file that describes the service, if it is not the schema of the run. -/
  proto : Option String := none
  /-- The method. -/
  call : String
  /-- What to send: each item of an array, or the one document. -/
  data : Option Json := none
  /-- Keys and values to send along, sorted by key. -/
  metadata : List (String × String) := []
  /-- Expressions that must not be false. -/
  expect : List String := []
  /-- Expressions to evaluate at the end. -/
  event : List String := []
  deriving Repr

namespace Entry

/-- The texts to send, one for each message. -/
def payloads (e : Entry) : List String :=
  match e.data with
  | none => []
  | some (.array items) => items.map Json.text
  | some j => [j.text]

/-! ## Entries as JSON -/

/-- The names of the fields, in the order in which an array gives them. -/
def fields : List String :=
  ["name", "url", "proto", "call", "data", "metadata", "expect", "event"]

/-- A field that null leaves out. -/
def nullable (read : Json → Option α) : Option Json → Option (Option α)
  | none => some none
  | some .null => some none
  | some j => (read j).map some

/-- A field that may be missing. -/
def optional (read : Json → Option (List α)) : Option Json → Option (List α)
  | none => some []
  | some j => read j

/-- A text. -/
def text? : Json → Option String
  | .string s => some s
  | _ => none

/-- A list of texts. -/
def texts? : Json → Option (List String)
  | .array items => items.mapM text?
  | _ => none

/-- Texts under names, sorted by name; the last of a name counts. -/
def pairs? : Json → Option (List (String × String))
  | .object members =>
    if members.all fun m ↦ (text? m.2).isSome then
      (Json.canonicalMembers members []).mapM fun (k, v) ↦ (text? v).map (k, ·)
    else none
  | _ => none

/-- The entry with the given fields. -/
def ofFields? (field : String → Option Json) : Option Entry := do
  return {
    name := ← text? (← field "name")
    url := ← nullable text? (field "url")
    proto := ← nullable text? (field "proto")
    call := ← text? (← field "call")
    data := ← nullable (some ·.canonical) (field "data")
    metadata := ← optional pairs? (field "metadata")
    expect := ← optional texts? (field "expect")
    event := ← optional texts? (field "event") }

/-- The entry that a document writes: an object with no field twice and no other, or an array of
the fields in order. -/
def ofJson? : Json → Option Entry
  | .object members =>
    let keys := members.map (·.1)
    if keys.Nodup ∧ keys ⊆ fields then ofFields? fun k ↦ members.lookup k else none
  | .array items =>
    if items.length ≤ fields.length then ofFields? fun k ↦ (fields.zip items).lookup k else none
  | _ => none

end Entry

end CallCheck.Probe

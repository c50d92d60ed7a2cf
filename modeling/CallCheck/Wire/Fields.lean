import CallCheck.Text.Utf8
import CallCheck.Wire.Record

/-!
# Fields of records

Reading records by field number as what they are meant to be. Each reader answers `none` where a
record of that number has another shape. Of several records for one value the last counts.
-/

namespace CallCheck.Wire

/-- The records of a field. -/
def under (field : Nat) (records : List Record) : List Record :=
  records.filter fun r ↦ r.field == field

/-- The bodies of a field. -/
def bodies? (field : Nat) (records : List Record) : Option (List (List UInt8)) :=
  (under field records).mapM fun
    | .bytes _ body => some body
    | _ => none

/-- The texts of a field. -/
def texts? (field : Nat) (records : List Record) : Option (List String) := do
  (← bodies? field records).mapM Text.Utf8.decode?

/-- The text of a field, if there is one. -/
def text? (field : Nat) (records : List Record) : Option (Option String) :=
  (texts? field records).map List.getLast?

/-- The 32-bit integers of a field. -/
def ints? (field : Nat) (records : List Record) : Option (List Int) :=
  (under field records).mapM fun
    | .varint _ n => some (toSigned 32 n)
    | _ => none

/-- The 32-bit integer of a field, if there is one. -/
def int? (field : Nat) (records : List Record) : Option (Option Int) :=
  (ints? field records).map List.getLast?

/-- The truth value of a field, if there is one. -/
def flag? (field : Nat) (records : List Record) : Option (Option Bool) := do
  let flags ← (under field records).mapM fun
    | .varint _ n => some (n != 0)
    | _ => none
  return flags.getLast?

/-- The one message of a field, all its bodies taken together. -/
def body? (field : Nat) (records : List Record) : Option (List UInt8) :=
  (bodies? field records).map List.flatten

/-- A text as a record. -/
def textRecord (field : Nat) (s : String) : Record := .bytes field (Text.Utf8.encode s)

/-- A 32-bit integer as a record. -/
def intRecord (field : Nat) (i : Int) : Record := .varint field (ofSigned 64 i)

/-- A truth value as a record. -/
def flagRecord (field : Nat) (b : Bool) : Record := .varint field b.toNat

/-- A message as a record. -/
def messageRecord (field : Nat) (records : List Record) : Record :=
  .bytes field (writeRecords records)

end CallCheck.Wire

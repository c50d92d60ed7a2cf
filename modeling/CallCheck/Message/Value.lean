import CallCheck.Numeric.Binary
import CallCheck.Schema.Pool
import CallCheck.Wire.Record

/-!
# Messages

A message holds values under the numbers of its fields, sorted by number. Records of fields that
its type does not have are kept as they came.
-/

namespace CallCheck.Message

open Numeric Schema

/-- What a message can hold under a number. -/
inductive Value
  /-- An integer of any width, or the number of a value of an enumeration. -/
  | int (i : Int)
  | bool (b : Bool)
  | float (x : Binary32)
  | double (x : Binary64)
  | string (s : String)
  | bytes (bs : List UInt8)
  /-- A message: values by field number, and the records that its type does not know. -/
  | message (fields : List (Nat × Value)) (unknown : List Wire.Record)
  /-- The values of a field that holds any number of them. -/
  | list (items : List Value)
  /-- The entries of a map. -/
  | map (entries : List (Value × Value))
  deriving Repr, Inhabited

/-- Whether two keys of a map are one. -/
def Value.sameKey : Value → Value → Bool
  | .int i, .int j => i == j
  | .bool b, .bool c => b == c
  | .string s, .string t => s == t
  | _, _ => false

/-- The entries of a map with one put in; it replaces the entry of its key. -/
def putEntry (key value : Value) : List (Value × Value) → List (Value × Value)
  | [] => [(key, value)]
  | (k, v) :: rest =>
    if k.sameKey key then (key, value) :: rest else (k, v) :: putEntry key value rest

/-- Values by field number, sorted by number. -/
abbrev Fields := List (Nat × Value)

namespace Fields

/-- The value under a number. -/
def get? (fields : Fields) (number : Nat) : Option Value := fields.lookup number

/-- The fields with a value under a number, in its place. -/
def set (number : Nat) (value : Value) : Fields → Fields
  | [] => [(number, value)]
  | (n, v) :: rest =>
    if number < n then (number, value) :: (n, v) :: rest
    else if n = number then (number, value) :: rest
    else (n, v) :: set number value rest

/-- The fields without those of some numbers. -/
def without (numbers : List Nat) (fields : Fields) : Fields :=
  fields.filter fun f ↦ !numbers.contains f.1

end Fields

end Message

namespace Schema

/-- The type that a field names; a name without a type is that of a type without fields. -/
def Pool.messageType (p : Pool) (name : String) : MessageType :=
  (p.messages.find? (·.symbol.full == name)).getD ⟨⟨name, name⟩, [], false⟩

/-- The enumeration that a field names. -/
def Pool.enumType? (p : Pool) (name : String) : Option EnumType := p.enums.find? (·.name == name)

/-- The fields that extensions add to a message type. -/
def Pool.extensionsOf (p : Pool) (m : MessageType) : List Field :=
  p.extensions.filterMap fun e ↦ if e.2.1 = m.symbol.full then some e.2.2 else none

/-- A message type with the fields that extensions add to it. -/
def Pool.extended (p : Pool) (m : MessageType) : MessageType :=
  { m with fields := m.fields ++ p.extensionsOf m }

/-- The types of the keys and values of a field that is a map. -/
def Pool.entry? (p : Pool) (f : Field) : Option (Field × Field) :=
  match f.repeated, f.type with
  | true, .message name =>
    let m := p.messageType name
    if m.mapEntry then do return (← m.field? 1, ← m.field? 2) else none
  | _, _ => none

/-- The other fields of the alternatives that a field belongs to. -/
def MessageType.siblings (m : MessageType) (f : Field) : List Nat :=
  match f.oneof with
  | none => []
  | some i => (m.fields.filter fun g ↦ g.oneof == some i && g.number != f.number).map (·.number)

end Schema

namespace Message

open Numeric Schema

/-- The value of a scalar type that stands for nothing. -/
def defaultScalar : Scalar → Value
  | .double => .double ⟨0⟩
  | .float => .float ⟨0⟩
  | .bool => .bool false
  | .string => .string ""
  | .bytes => .bytes []
  | _ => .int 0

/-- The value of a type that stands for nothing. -/
def defaultOf (p : Pool) : FieldType → Value
  | .scalar s => defaultScalar s
  | .enum name => .int ((p.enumType? name).elim 0 EnumType.default)
  | .message _ => .message [] []

/-- The value of a field that is not set. -/
def defaultValue (p : Pool) (f : Field) : Value :=
  if (p.entry? f).isSome then .map []
  else if f.repeated then .list []
  else defaultOf p f.type

/-- Whether a value is that of a field which is not set. Both zeros are. -/
def isDefault (p : Pool) (f : Field) : Value → Bool
  | .int i => match defaultOf p f.type with
    | .int j => i == j
    | _ => false
  | .bool b => !b
  | .float x => x.bits.toNat % binary32.signWeight == 0
  | .double x => x.isZero
  | .string s => s.isEmpty
  | .bytes bs => bs.isEmpty
  | .list items => items.isEmpty
  | .map entries => entries.isEmpty
  | .message .. => false

/-- Whether a value is left out when its message is written. -/
def isOmitted (p : Pool) (f : Field) (v : Value) : Bool := !f.presence && isDefault p f v

end Message

end CallCheck

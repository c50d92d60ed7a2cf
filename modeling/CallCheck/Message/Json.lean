import CallCheck.Json.Read
import CallCheck.Message.Value
import CallCheck.Numeric.Numeral
import CallCheck.Text.Base64

/-!
# Messages as JSON

A message is a JSON object with its fields as members. Reading takes either name of a field and
several spellings of numbers; writing gives every field that has a value without being set, and of
the others those that are set.
-/

namespace CallCheck.Message

open Numeric Schema

/-! ## Reading -/

/-- The least and the greatest integer of a type, if its values are integers. -/
def bounds? : Scalar → Option (Int × Int)
  | .int32 | .sint32 | .sfixed32 => some (minSigned 32, maxSigned 32)
  | .uint32 | .fixed32 => some (0, maxUnsigned 32)
  | .int64 | .sint64 | .sfixed64 => some (minSigned 64, maxSigned 64)
  | .uint64 | .fixed64 => some (0, maxUnsigned 64)
  | _ => none

/-- The double precision number nearest to a bound is still within it, and stands for the bound. -/
def saturate (low high : Int) (i : Int) : Option Int :=
  if low ≤ i ∧ i ≤ high then some i
  else if capacity 53 < high ∧ i = high + 1 then some high
  else none

/-- The integer that a document writes, within bounds: a number without a fraction, or a text in
decimal. -/
def readInt? (low high : Int) : Json → Option Int
  | .number (.int i) => if low ≤ i ∧ i ≤ high then some i else none
  | .number (.real x) => x.toInt?.bind (saturate low high)
  | .string s => intIn? low high s.toList
  | _ => none

/-- The single precision number nearest to an integer. -/
def floatOfInt (i : Int) : Binary32 := .ofParts (decide (i < 0)) (binary32.round i.natAbs 1)

/-- Whether a number is not beyond the largest of single precision. -/
def fitsFloat (x : Binary64) : Bool :=
  match x.unpack with
  | .finite _ m e =>
    let (num, den) := Binary64.ratio m e
    decide (num ≤ maxUnsigned 24 * capacity 104 * den)
  | _ => true

/-- The scalar that a document writes. -/
def readScalar? (s : Scalar) (j : Json) : Option Value :=
  match bounds? s with
  | some (low, high) => (readInt? low high j).map .int
  | none =>
    match s, j with
    | .bool, .bool b => some (.bool b)
    | .string, .string t => some (.string t)
    | .bytes, .string t => (Text.Base64.decode? t).map .bytes
    | .double, .number (.int i) => some (.double (.ofInt i))
    | .double, .number (.real x) => some (.double x)
    | .double, .string t => (Binary64.ofNumeral? t).map .double
    | .float, .number (.int i) => some (.float (floatOfInt i))
    | .float, .number (.real x) => if fitsFloat x then some (.float (.ofBinary64 x)) else none
    | .float, .string t => (Binary32.ofNumeral? t).map .float
    | _, _ => none

/-- The number of the value of an enumeration that a document names. -/
def readEnum? (e : EnumType) : Json → Option Int
  | .string s => e.number? s
  | .number (.int i) => if hasWidth 32 i then some i else none
  | _ => none

/-- The value of a type that a document without parts writes. -/
def readPlain? (p : Pool) (t : FieldType) (j : Json) : Option Value :=
  match t with
  | .scalar s => readScalar? s j
  | .enum name => ((p.enumType? name).bind (readEnum? · j)).map .int
  | .message _ => none

/-- The key of a map that a text writes. -/
def readKey? (t : FieldType) (key : String) : Option Value :=
  match t with
  | .scalar .string => some (.string key)
  | .scalar .bool =>
    if key = "true" then some (.bool true)
    else if key = "false" then some (.bool false)
    else none
  | .scalar s => (bounds? s).bind fun (low, high) ↦ (intIn? low high key.toList).map .int
  | _ => none

/-- Whether alternatives of a field, itself among them, are chosen already. -/
def isChosen (m : MessageType) (f : Field) (fields : Fields) : Bool :=
  f.oneof.isSome && (f.number :: m.siblings f).any fun n ↦ (Fields.get? fields n).isSome

mutual

/-- The value of a type that a document writes. -/
def readSingle? (p : Pool) (t : FieldType) : Json → Option Value
  | .object members =>
    match t with
    | .message name =>
      (readMembers? p (p.extended (p.messageType name)) [] members).map (.message · [])
    | _ => none
  | .array _ => none
  | .null => none
  | .bool b => readPlain? p t (.bool b)
  | .number n => readPlain? p t (.number n)
  | .string s => readPlain? p t (.string s)

/-- The values that items write. -/
def readItems? (p : Pool) (t : FieldType) : List Json → Option (List Value)
  | [] => some []
  | j :: rest => do return (← readSingle? p t j) :: (← readItems? p t rest)

/-- The entries of a map that members write, after those of `done`. -/
def readEntries? (p : Pool) (key value : FieldType) (done : List (Value × Value)) :
    List (String × Json) → Option (List (Value × Value))
  | [] => some done
  | (k, j) :: rest => do
    readEntries? p key value (putEntry (← readKey? key k) (← readSingle? p value j) done) rest

/-- The value of a field that a document writes; null writes none. -/
def readField? (p : Pool) (f : Field) : Json → Option (Option Value)
  | .null => some none
  | .array items =>
    if f.repeated && (p.entry? f).isNone then (readItems? p f.type items).map (some ∘ .list)
    else none
  | .object members =>
    match p.entry? f, f.repeated, f.type with
    | some (key, value), _, _ => (readEntries? p key.type value.type [] members).map (some ∘ .map)
    | none, false, .message name =>
      (readMembers? p (p.extended (p.messageType name)) [] members).map (some ∘ (.message · []))
    | none, _, _ => none
  | .bool b => if f.repeated then none else (readPlain? p f.type (.bool b)).map some
  | .number n => if f.repeated then none else (readPlain? p f.type (.number n)).map some
  | .string s => if f.repeated then none else (readPlain? p f.type (.string s)).map some

/-- The fields of a message that members write, after those of `done`. A member that stands twice
counts the last time; of alternatives only one may stand. -/
def readMembers? (p : Pool) (m : MessageType) (done : Fields) :
    List (String × Json) → Option Fields
  | [] => some done
  | (key, j) :: rest => do
    let f ← m.named? key
    match ← readField? p f j with
    | none => readMembers? p m done rest
    | some v =>
      if isChosen m f done then none
      else readMembers? p m (Fields.set f.number v done) rest

end

/-- The message of a type that a document writes. -/
def ofJson? (p : Pool) (m : MessageType) : Json → Option Value
  | .object members => (readMembers? p (p.extended m) [] members).map (.message · [])
  | _ => none

/-- The message of a type that a text writes. -/
def ofText? (p : Pool) (m : MessageType) (text : String) : Option Value :=
  (Json.read? text).bind (ofJson? p m)

/-! ## Writing -/

/-- A floating point number. What is not finite is named. -/
def writeReal (x : Binary64) : Json :=
  match x.unpack with
  | .nan => .string "NaN"
  | .infinite negative => .string (if negative then "-Infinity" else "Infinity")
  | .finite .. => .number (.real x)

/-- An integer of a type. One that other readers could not hold is a text. -/
def writeInt (p : Pool) (t : FieldType) (i : Int) : Json :=
  match t with
  | .scalar .int64 | .scalar .uint64 | .scalar .fixed64 | .scalar .sfixed64 | .scalar .sint64 =>
    .string (toString i)
  | .enum name =>
    match (p.enumType? name).bind (·.value? i) with
    | some value => .string value
    | none => .int i
  | _ => .int i

/-- The key of a map as text. -/
def writeKey : Value → String
  | .int i => toString i
  | .bool b => toString b
  | .string s => s
  | _ => ""

/-- The fields of a message type that have a value without being set, and are not. -/
def writeUnset (p : Pool) (m : MessageType) (fields : Fields) : List (String × Json) :=
  (m.fields.filter fun f ↦ !f.presence && (Fields.get? fields f.number).isNone).map fun f ↦
    (f.jsonName,
      if (p.entry? f).isSome then .object []
      else if f.repeated then .array []
      else match defaultOf p f.type with
        | .int i => writeInt p f.type i
        | .bool b => .bool b
        | .float x => writeReal x.toBinary64
        | .double x => writeReal x
        | .string s => .string s
        | .bytes _ => .string ""
        | _ => .null)

mutual

/-- The value of a field. -/
def writeValue (p : Pool) (f : Field) : Value → Json
  | .int i => writeInt p f.type i
  | .bool b => .bool b
  | .float x => writeReal x.toBinary64
  | .double x => writeReal x
  | .string s => .string s
  | .bytes bs => .string (Text.Base64.encode bs)
  | .message fields _ =>
    let m := match f.type with
      | .message name => p.messageType name
      | _ => p.messageType ""
    .ofMembers (writeUnset p m fields ++ writeFields p m fields)
  | .list items => .array (writeItems p f items)
  | .map entries =>
    .ofMembers (writeEntries p (((p.entry? f).map (·.2)).getD f) entries)

/-- The values of a list. -/
def writeItems (p : Pool) (f : Field) : List Value → List Json
  | [] => []
  | v :: rest => writeValue p f v :: writeItems p f rest

/-- The entries of a map. -/
def writeEntries (p : Pool) (value : Field) : List (Value × Value) → List (String × Json)
  | [] => []
  | (k, v) :: rest => (writeKey k, writeValue p value v) :: writeEntries p value rest

/-- The fields of a message that are set. An extension that is set to what stands for nothing is
left out if it has no presence. -/
def writeFields (p : Pool) (m : MessageType) : List (Nat × Value) → List (String × Json)
  | [] => []
  | (number, v) :: rest =>
    match (p.extended m).field? number with
    | some f =>
      if (m.field? number).isNone && isOmitted p f v then writeFields p m rest
      else (f.jsonName, writeValue p f v) :: writeFields p m rest
    | none => writeFields p m rest

end

/-- The document of a message of a type. -/
def toJson (p : Pool) (m : MessageType) : Value → Json
  | .message fields _ =>
    .ofMembers (writeUnset p m fields ++ writeFields p m fields)
  | _ => .null

end CallCheck.Message

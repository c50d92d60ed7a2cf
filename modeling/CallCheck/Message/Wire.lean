import CallCheck.Message.Value
import CallCheck.Text.Utf8

/-!
# Messages on the wire

A message as records. `records` writes fields ascending by number, with what the type does not
know among them. `merge?` reads bytes into a message that may hold values already: the last of
several scalars counts, lists grow, and messages are merged.
-/

namespace CallCheck.Message

open Numeric Schema Wire

/-! ## Writing -/

/-- How the values of a type are laid out. -/
inductive Shape
  | varint
  | fixed64
  | bytes
  | fixed32
  deriving DecidableEq, Repr

/-- The layout of a type. -/
def shape : FieldType → Shape
  | .scalar .double => .fixed64
  | .scalar .fixed64 => .fixed64
  | .scalar .sfixed64 => .fixed64
  | .scalar .float => .fixed32
  | .scalar .fixed32 => .fixed32
  | .scalar .sfixed32 => .fixed32
  | .scalar .string => .bytes
  | .scalar .bytes => .bytes
  | .message _ => .bytes
  | _ => .varint

/-- The number that an integer is written as. -/
def intCode (t : FieldType) (i : Int) : Nat :=
  match t with
  | .scalar .sint32 => zigzag i
  | .scalar .sint64 => zigzag i
  | t =>
    match shape t with
    | .fixed32 => ofSigned 32 i
    | _ => ofSigned 64 i

/-- A record of a layout that holds a number. -/
def numberRecord (field n : Nat) : Shape → Record
  | .varint => .varint field n
  | .fixed64 => .fixed64 field n
  | .bytes => .bytes field []
  | .fixed32 => .fixed32 field n

/-- The payload of a record that holds a number. -/
def Shape.payload (n : Nat) : Shape → List UInt8
  | .varint => writeVarint n
  | .fixed64 => writeLittleEndian 8 n
  | .bytes => []
  | .fixed32 => writeLittleEndian 4 n

/-- The number that a scalar is written as, if it is written as one. -/
def code? (t : FieldType) : Value → Option Nat
  | .int i => some (intCode t i)
  | .bool b => some b.toNat
  | .float x => some x.bits.toNat
  | .double x => some x.bits.toNat
  | _ => none

/-- The payload of a field with several numbers in one record. -/
def packedPayload (t : FieldType) (items : List Value) : List UInt8 :=
  items.flatMap fun v ↦ ((code? t v).map fun n ↦ (shape t).payload n).getD []

/-- Records sorted by field number; those of a number stay in order. -/
def sortRecords (records : List Record) : List Record :=
  records.mergeSort fun r s ↦ decide (r.field ≤ s.field)

/-- The field that a number stands for, or one of no type known. -/
def fieldOr (m : MessageType) (number : Nat) : Field :=
  (m.field? number).getD { name := "", jsonName := "", number, type := .scalar .bytes }

mutual

/-- The value of a field as records. -/
def recordsOf (p : Pool) (f : Field) : Value → List Record
  | .message fields unknown =>
    let m := match f.type with
      | .message name => p.extended (p.messageType name)
      | _ => p.messageType ""
    [.bytes f.number (writeRecords (sortRecords (recordsOfFields p m fields ++ unknown)))]
  | .string s => [.bytes f.number (Text.Utf8.encode s)]
  | .bytes bs => [.bytes f.number bs]
  | .int i => [numberRecord f.number (intCode f.type i) (shape f.type)]
  | .bool b => [numberRecord f.number b.toNat (shape f.type)]
  | .float x => [numberRecord f.number x.bits.toNat (shape f.type)]
  | .double x => [numberRecord f.number x.bits.toNat (shape f.type)]
  | .list items =>
    if items.isEmpty then []
    else if f.packed then [.bytes f.number (packedPayload f.type items)]
    else recordsOfItems p f items
  | .map entries =>
    match p.entry? f with
    | some (key, value) => recordsOfEntries p key value f.number entries
    | none => []

/-- The values of a list, each as a record. -/
def recordsOfItems (p : Pool) (f : Field) : List Value → List Record
  | [] => []
  | v :: rest => recordsOf p f v ++ recordsOfItems p f rest

/-- The entries of a map, each as a record of a key and a value. -/
def recordsOfEntries (p : Pool) (key value : Field) (number : Nat) :
    List (Value × Value) → List Record
  | [] => []
  | (k, v) :: rest =>
    .bytes number (writeRecords ((if isOmitted p key k then [] else recordsOf p key k) ++
        if isOmitted p value v then [] else recordsOf p value v)) ::
      recordsOfEntries p key value number rest

/-- The fields of a message as records. -/
def recordsOfFields (p : Pool) (m : MessageType) : List (Nat × Value) → List Record
  | [] => []
  | (number, v) :: rest =>
    (if isOmitted p (fieldOr m number) v then [] else recordsOf p (fieldOr m number) v) ++
      recordsOfFields p m rest

end

/-! ## Reading -/

/-- The integer that a number of a type stands for. -/
def intOfCode (t : FieldType) (n : Nat) : Int :=
  match t with
  | .scalar .int64 => toSigned 64 n
  | .scalar .uint64 => n
  | .scalar .fixed64 => n
  | .scalar .sfixed64 => toSigned 64 n
  | .scalar .uint32 => (n % Numeric.capacity 32 : Nat)
  | .scalar .fixed32 => n
  | .scalar .sint32 => unzigzag (n % Numeric.capacity 32)
  | .scalar .sint64 => unzigzag n
  | _ => toSigned 32 n

/-- The value that a number of a type stands for. -/
def ofCode (t : FieldType) (n : Nat) : Value :=
  match t with
  | .scalar .bool => .bool (n != 0)
  | .scalar .float => .float ⟨UInt32.ofNat n⟩
  | .scalar .double => .double ⟨UInt64.ofNat n⟩
  | t => .int (intOfCode t n)

/-- The numbers of a layout that bytes hold, one after the other. -/
def unpack? (s : Shape) (bytes : List UInt8) : Option (List Nat) :=
  match bytes with
  | [] => some []
  | b :: rest => do
    let (n, used) ← match s with
      | .varint => varint? (b :: rest)
      | .fixed64 => (fixed? 8 (b :: rest)).map (·, 8)
      | .fixed32 => (fixed? 4 (b :: rest)).map (·, 4)
      | .bytes => none
    return n :: (← unpack? s (rest.drop (used - 1)))
termination_by bytes.length
decreasing_by simp only [List.length_drop, List.length_cons]; omega

/-- The scalar that a record of a type holds. -/
def scalar? (t : FieldType) : Record → Option Value
  | .varint _ n => if shape t = .varint then some (ofCode t n) else none
  | .fixed64 _ n => if shape t = .fixed64 then some (ofCode t n) else none
  | .fixed32 _ n => if shape t = .fixed32 then some (ofCode t n) else none
  | .bytes _ body =>
    match t with
    | .scalar .string => (Text.Utf8.decode? body).map .string
    | .scalar .bytes => some (.bytes body)
    | _ => none
  | .group .. => none

/-- Reads the bytes of a message of a type into the values and the unknown records it has. -/
abbrev Merger := MessageType → List UInt8 → Fields × List Record → Option (Fields × List Record)

/-- The value of a type that a record leads to, given the value so far. -/
def single? (p : Pool) (merge : Merger) (t : FieldType) (before : Option Value) (r : Record) :
    Option Value :=
  match t, r with
  | .message name, .bytes _ body =>
    let start := match before with
      | some (.message fields unknown) => (fields, unknown)
      | _ => ([], [])
    (merge (p.extended (p.messageType name)) body start).map fun (fields, unknown) ↦
      .message fields unknown
  | .message _, _ => none
  | t, r => scalar? t r

/-- The key and value of the records of a map entry. -/
def entry? (p : Pool) (merge : Merger) (key value : Field) (records : List Record) :
    Option (Value × Value) :=
  records.foldlM (fun (k, v) r ↦
      match r.field with
      | 1 => (single? p merge key.type (some k) r).map (·, v)
      | 2 => (single? p merge value.type (some v) r).map (k, ·)
      | _ => some (k, v))
    (defaultValue p key, defaultValue p value)

/-- The value of a field that a record leads to, given the value so far. -/
def merged? (p : Pool) (merge : Merger) (depth : Nat) (f : Field) (before : Option Value)
    (r : Record) : Option Value :=
  match p.entry? f with
  | some (key, value) =>
    match r with
    | .bytes _ body => do
      let (k, v) ← entry? p merge key value (← records? depth body)
      let entries := match before with
        | some (.map entries) => entries
        | _ => []
      return .map (putEntry k v entries)
    | _ => none
  | none =>
    if f.repeated then do
      let items := match before with
        | some (.list items) => items
        | _ => []
      match r with
      | .bytes _ body =>
        if f.type.isPackable then
          return .list (items ++ (← unpack? (shape f.type) body).map (ofCode f.type))
        else return .list (items ++ [← single? p merge f.type none r])
      | r => return .list (items ++ [← single? p merge f.type none r])
    else single? p merge f.type before r

/-- Adds a record to a message: to the value of its field, in place of the other alternatives, or to
what the type does not know. -/
def addRecord? (p : Pool) (merge : Merger) (depth : Nat) (m : MessageType)
    (message : Fields × List Record) (r : Record) : Option (Fields × List Record) :=
  match m.field? r.field with
  | none => some (message.1, message.2 ++ [r])
  | some f => do
    let fields := Fields.without (m.siblings f) message.1
    let v ← merged? p merge depth f (Fields.get? fields f.number) r
    return (Fields.set f.number v fields, message.2)

/-- Reads the bytes of a message that nests at most `depth` levels. -/
def merge? (p : Pool) : Nat → Merger
  | 0, _, _, _ => none
  | depth + 1, m, bytes, message => do
    (← records? depth bytes).foldlM (addRecord? p (merge? p depth) depth m) message

/-- How deep messages may nest in a message that is read. -/
def maxNesting : Nat := 100

/-- The message of a type that bytes write. -/
def ofBytes? (p : Pool) (m : MessageType) (bytes : List UInt8) : Option Value :=
  (merge? p (maxNesting + 1) (p.extended m) bytes ([], [])).map fun (fields, unknown) ↦
    .message fields unknown

/-- The bytes of a message of a type. -/
def bytes (p : Pool) (m : MessageType) : Value → List UInt8
  | .message fields unknown =>
    writeRecords (sortRecords (recordsOfFields p (p.extended m) fields ++ unknown))
  | _ => []

end CallCheck.Message

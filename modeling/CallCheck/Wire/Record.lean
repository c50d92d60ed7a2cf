import CallCheck.Wire.Varint

/-!
# Records

A message on the wire is a sequence of records, each a field number with a payload of one of five
shapes. A payload can be a group, records between an opening and a closing mark; `items?` reads
the marks flat and `assemble?` puts the groups together.
-/

namespace CallCheck.Wire

/-- A field number and what stands under it. -/
inductive Record
  /-- An integer of variable length. -/
  | varint (field value : Nat)
  /-- Eight bytes. -/
  | fixed64 (field value : Nat)
  /-- Any number of bytes. -/
  | bytes (field : Nat) (body : List UInt8)
  /-- Records between marks. -/
  | group (field : Nat) (records : List Record)
  /-- Four bytes. -/
  | fixed32 (field value : Nat)
  deriving Repr

/-- The number of a record. -/
def Record.field : Record → Nat
  | .varint field _ => field
  | .fixed64 field _ => field
  | .bytes field _ => field
  | .group field _ => field
  | .fixed32 field _ => field

/-! ## Reading -/

/-- A record, or a mark of a group. -/
inductive Item
  /-- A record that is no group. -/
  | record (r : Record)
  /-- The start of a group. -/
  | openGroup (field : Nat)
  /-- The end of a group. -/
  | closeGroup (field : Nat)
  deriving Repr

/-- The number that a fixed count of bytes write. -/
def fixed? (width : Nat) (bytes : List UInt8) : Option Nat :=
  if width ≤ bytes.length then some (littleEndian (bytes.take width)) else none

/-- The item at the start of the bytes, and how many of them it takes. -/
def item? (bytes : List UInt8) : Option (Item × Nat) := do
  let (key, used) ← varint? bytes
  let field := key / 8
  let rest := bytes.drop used
  if Numeric.capacity 32 ≤ key ∨ field = 0 then none
  else
    match key % 8 with
    | 0 => do
      let (n, more) ← varint? rest
      return (.record (.varint field n), used + more)
    | 1 => return (.record (.fixed64 field (← fixed? 8 rest)), used + 8)
    | 2 => do
      let (length, more) ← varint? rest
      let body := rest.drop more
      if length ≤ body.length then
        return (.record (.bytes field (body.take length)), used + more + length)
      else none
    | 3 => return (.openGroup field, used)
    | 4 => return (.closeGroup field, used)
    | 5 => return (.record (.fixed32 field (← fixed? 4 rest)), used + 4)
    | _ => none

/-- The items of the bytes. -/
def items? : List UInt8 → Option (List Item)
  | [] => some []
  | b :: rest => do
    let (i, used) ← item? (b :: rest)
    return i :: (← items? (rest.drop (used - 1)))
termination_by bytes => bytes.length
decreasing_by simp only [List.length_drop, List.length_cons]; omega

/-- The records that items write, with at most `depth` groups in each other. The stack holds the
open groups with the records before each; those read so far come last first. -/
def assemble? (depth : Nat) :
    List (Nat × List Record) → List Record → List Item → Option (List Record)
  | [], done, [] => some done.reverse
  | _ :: _, _, [] => none
  | stack, done, .record r :: rest => assemble? depth stack (r :: done) rest
  | stack, done, .openGroup field :: rest =>
    if stack.length < depth then assemble? depth ((field, done) :: stack) [] rest else none
  | (field, before) :: stack, done, .closeGroup closed :: rest =>
    if field = closed then assemble? depth stack (.group field done.reverse :: before) rest
    else none
  | [], _, .closeGroup _ :: _ => none

/-- The records of the bytes, with at most `depth` groups in each other. -/
def records? (depth : Nat) (bytes : List UInt8) : Option (List Record) :=
  (items? bytes).bind (assemble? depth [] [])

/-! ## Writing -/

/-- The key of a record of a shape. -/
def writeKey (field shape : Nat) : List UInt8 := writeVarint (field * 8 + shape)

mutual

/-- The bytes of a record. -/
def Record.write : Record → List UInt8
  | .varint field n => writeKey field 0 ++ writeVarint n
  | .fixed64 field n => writeKey field 1 ++ writeLittleEndian 8 n
  | .bytes field body => writeKey field 2 ++ writeVarint body.length ++ body
  | .group field records => writeKey field 3 ++ writeRecords records ++ writeKey field 4
  | .fixed32 field n => writeKey field 5 ++ writeLittleEndian 4 n

/-- The bytes of records. -/
def writeRecords : List Record → List UInt8
  | [] => []
  | r :: rest => r.write ++ writeRecords rest

end

end CallCheck.Wire

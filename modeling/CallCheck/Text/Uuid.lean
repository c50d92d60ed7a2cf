/-!
# Hexadecimal bytes and identifiers

Bytes written as pairs of lowercase hexadecimal digits, and read from pairs of either case.
Identifiers are written so: they are unique because they are drawn at random, sixteen bytes, six
bits of which say how they were drawn.
-/

namespace CallCheck.Text

namespace Hex

/-- The digit of a number below sixteen. -/
def digit (n : Nat) : Char := Nat.digitChar n

/-- The value of a hexadecimal digit. -/
def value? (c : Char) : Option Nat :=
  if '0' ≤ c ∧ c ≤ '9' then some (c.toNat - '0'.toNat)
  else if 'a' ≤ c ∧ c ≤ 'f' then some (c.toNat - 'a'.toNat + 10)
  else if 'A' ≤ c ∧ c ≤ 'F' then some (c.toNat - 'A'.toNat + 10)
  else none

/-- Two digits for each byte. -/
def encode (bytes : List UInt8) : String :=
  String.ofList (bytes.flatMap fun b ↦ [digit (b.toNat / 16), digit (b.toNat % 16)])

/-- The bytes that pairs of digits write. -/
def decodeChars? : List Char → Option (List UInt8)
  | [] => some []
  | [_] => none
  | a :: b :: rest => do
    let high ← value? a
    let low ← value? b
    let bytes ← decodeChars? rest
    return UInt8.ofNat (high * 16 + low) :: bytes

/-- The bytes that a text of digit pairs writes. -/
def decode? (s : String) : Option (List UInt8) := decodeChars? s.toList

end Hex

/-- The sixteen bytes with the marks of a random identifier. -/
def markRandom (bytes : List UInt8) : List UInt8 :=
  bytes.zipIdx.map fun (b, i) ↦
    if i = 6 then UInt8.ofNat (0x40 + b.toNat % 0x10)
    else if i = 8 then UInt8.ofNat (0x80 + b.toNat % 0x40)
    else b

/-- The identifier made of sixteen random bytes. -/
def uuid (bytes : List UInt8) : String :=
  let digits := (Hex.encode (markRandom bytes)).toList
  let part (start count : Nat) := String.ofList ((digits.drop start).take count)
  "-".intercalate [part 0 8, part 8 4, part 12 4, part 16 4, part 20 12]

end CallCheck.Text

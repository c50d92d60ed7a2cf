import CallCheck.Numeric.Width

/-!
# Variable-length integers

An integer below `2 ^ 64` as up to ten bytes of seven bits, the low ones first. All bytes but the
last have their top bit set.
-/

namespace CallCheck.Wire

/-- The integer at the start of the bytes, and how many of them it takes; at most `more` bytes
follow the first. The last byte of a full-length integer holds a single bit. -/
def varintFrom? (more : Nat) : List UInt8 → Option (Nat × Nat)
  | [] => none
  | b :: rest =>
    let n := b.toNat
    match more with
    | 0 => if n < 2 then some (n, 1) else none
    | more + 1 =>
      if n < 0x80 then some (n, 1)
      else (varintFrom? more rest).map fun (high, used) ↦ (n - 0x80 + 0x80 * high, used + 1)

/-- The integer at the start of the bytes, and how many of them it takes. -/
def varint? (bytes : List UInt8) : Option (Nat × Nat) := varintFrom? 9 bytes

/-- The bytes of an integer. -/
def writeVarint (n : Nat) : List UInt8 :=
  if n < 0x80 then [UInt8.ofNat n]
  else UInt8.ofNat (n % 0x80 + 0x80) :: writeVarint (n / 0x80)

/-- The integer that bytes write, low byte first. -/
def littleEndian (bytes : List UInt8) : Nat :=
  bytes.foldr (fun b n ↦ b.toNat + 0x100 * n) 0

/-- An integer in a number of bytes, low byte first. -/
def writeLittleEndian : Nat → Nat → List UInt8
  | 0, _ => []
  | width + 1, n => UInt8.ofNat (n % 0x100) :: writeLittleEndian width (n / 0x100)

/-- The integer of a width in bits, two's complement. -/
def toSigned (bits n : Nat) : Int := (n : Int).bmod (Numeric.capacity bits)

/-- The two's complement of an integer in a width of bits. -/
def ofSigned (bits : Nat) (i : Int) : Nat := (i % Numeric.capacity bits).toNat

/-- The integer that a zigzag number stands for: even numbers count up from zero, odd ones down
from minus one. -/
def unzigzag (n : Nat) : Int := if n % 2 = 0 then (n / 2 : Nat) else -(n / 2 : Nat) - 1

/-- The zigzag number of an integer. -/
def zigzag (i : Int) : Nat := if 0 ≤ i then 2 * i.toNat else 2 * (-i - 1).toNat + 1

theorem unzigzag_zigzag (i : Int) : unzigzag (zigzag i) = i := by
  unfold zigzag
  split <;> simp only [unzigzag] <;> split <;> omega

end CallCheck.Wire

import CallCheck.Numeric.Width

/-!
# Binary floating point

The bits of a floating point number in exact integer arithmetic. A `Format` gives the widths of
the fields; `Format.unpack` reads bits as a sign, an integer significand and a power of two, and
`Format.round` finds the bits of the number nearest to a fraction, ties to the even significand.
Nothing here touches the machine's own floating point, so every value computed is open to proof.

`Binary64` is the type of double precision numbers used throughout, told apart by their bits.
-/

namespace CallCheck.Numeric

/-- The quotient rounded to the nearest integer, ties to the even one. -/
def roundDiv (num den : Nat) : Nat :=
  let floor := num / den
  let rest := num % den
  if 2 * rest < den then floor
  else if den < 2 * rest then floor + 1
  else floor + floor % 2

/-- The field widths of a binary interchange format. -/
structure Format where
  /-- Bits of the significand, the leading one included. -/
  precision : Nat
  /-- Bits of the exponent field. -/
  exponentBits : Nat
  deriving DecidableEq, Repr

/-- Double precision. -/
def binary64 : Format := ⟨53, 11⟩

/-- Single precision. -/
def binary32 : Format := ⟨24, 8⟩

/-- What bits stand for. -/
inductive Unpacked
  /-- Not a number. -/
  | nan
  /-- An infinity. -/
  | infinite (negative : Bool)
  /-- The number `± significand * 2 ^ exponent`. -/
  | finite (negative : Bool) (significand : Nat) (exponent : Int)
  deriving DecidableEq, Repr

namespace Format

variable (f : Format)

/-- The power of two that the lowest bit of the smallest numbers counts. -/
def minExponent : Int := 3 - capacity (f.exponentBits - 1) - f.precision

/-- The values of the fraction field. -/
def fractionBase : Nat := capacity (f.precision - 1)

/-- The bits of positive infinity. -/
def infinityBits : Nat := maxUnsigned f.exponentBits * f.fractionBase

/-- The weight of the sign bit. -/
def signWeight : Nat := capacity f.exponentBits * f.fractionBase

/-- The number that bits stand for. -/
def unpack (bits : Nat) : Unpacked :=
  let negative := bits / f.signWeight % 2 == 1
  let field := bits % f.signWeight / f.fractionBase
  let fraction := bits % f.fractionBase
  if field = maxUnsigned f.exponentBits then
    if fraction = 0 then .infinite negative else .nan
  else if field = 0 then .finite negative fraction f.minExponent
  else .finite negative (fraction + f.fractionBase) (f.minExponent + field - 1)

/-- The fraction `num / den` divided by `2 ^ q`. -/
def descale (num den : Nat) : Int → Nat × Nat
  | .ofNat q => (num, den * capacity q)
  | .negSucc q => (num * capacity (q + 1), den)

/-- The bits, without the sign, of the number nearest to `num / den`; past the largest finite
number they are those of infinity. -/
def round (num den : Nat) : Nat :=
  if num = 0 then 0
  else
    let estimate : Int := (num.log2 : Int) - den.log2 - f.precision
    let low := max estimate f.minExponent
    let (n, d) := descale num den low
    let exponent := if capacity f.precision ≤ n / d then low + 1 else low
    let (n, d) := descale num den exponent
    min ((exponent - f.minExponent).toNat * f.fractionBase + roundDiv n d) f.infinityBits

/-- The bits with a sign. -/
def withSign (negative : Bool) (magnitude : Nat) : Nat :=
  if negative then f.signWeight + magnitude else magnitude

end Format

/-- A decimal numeral's value, `digits * 10 ^ exponent`. -/
structure Decimal where
  /-- The digits, read as one integer. -/
  digits : Nat
  /-- The power of ten that the last digit counts. -/
  exponent : Int
  deriving DecidableEq, Repr

/-- The bits, without the sign, of the number nearest to a decimal. A decimal far outside the
range of the format is not expanded first. -/
def Format.ofDecimal (f : Format) (d : Decimal) : Nat :=
  let top := d.exponent + (Nat.toDigits 10 d.digits).length
  if d.digits = 0 ∨ top < -400 then 0
  else if 400 < top then f.infinityBits
  else match d.exponent with
    | .ofNat e => f.round (d.digits * Nat.pow 10 e) 1
    | .negSucc e => f.round d.digits (Nat.pow 10 (e + 1))

/-- A double precision number, by its bits. -/
structure Binary64 where
  /-- The bits, sign first. -/
  bits : UInt64
  deriving DecidableEq, Repr

namespace Binary64

/-- The number that the bits stand for. -/
def unpack (x : Binary64) : Unpacked := binary64.unpack x.bits.toNat

/-- A number from its sign and the remaining bits. -/
def ofParts (negative : Bool) (magnitude : Nat) : Binary64 :=
  ⟨UInt64.ofNat (binary64.withSign negative magnitude)⟩

/-- The number nearest to `± num / den`. -/
def ofRatio (negative : Bool) (num den : Nat) : Binary64 :=
  ofParts negative (binary64.round num den)

/-- The number nearest to an integer. -/
def ofInt (i : Int) : Binary64 := ofRatio (decide (i < 0)) i.natAbs 1

/-- The number nearest to `± d`. -/
def ofDecimal (negative : Bool) (d : Decimal) : Binary64 :=
  ofParts negative (binary64.ofDecimal d)

/-- Positive infinity. -/
def infinity : Binary64 := ofParts false binary64.infinityBits

/-- The quiet not-a-number with no payload. -/
def nan : Binary64 := ⟨0x7ff8000000000000⟩

/-- Neither an infinity nor a not-a-number. -/
def isFinite (x : Binary64) : Bool := x.unpack matches .finite ..

/-- One of the two zeros. -/
def isZero (x : Binary64) : Bool := x.bits.toNat % binary64.signWeight == 0

/-- The fraction `significand * 2 ^ exponent`. -/
def ratio (significand : Nat) : Int → Nat × Nat
  | .ofNat e => (significand * capacity e, 1)
  | .negSucc e => (significand, capacity (e + 1))

/-- The product of two finite numbers, rounded. -/
def mul (x y : Binary64) : Binary64 :=
  match x.unpack, y.unpack with
  | .finite s m e, .finite t n f =>
    let (num, den) := ratio (m * n) (e + f)
    ofRatio (s != t) num den
  | _, _ => nan

/-- The quotient of two finite numbers, the second not zero, rounded. -/
def div (x y : Binary64) : Binary64 :=
  match x.unpack, y.unpack with
  | .finite s m e, .finite t n f =>
    let (num, den) := ratio m (e - f)
    ofRatio (s != t) num (den * n)
  | _, _ => nan

/-- The number with the other sign. -/
def neg (x : Binary64) : Binary64 := ⟨x.bits ^^^ 0x8000000000000000⟩

/-- The integer that a number is, if it is one. -/
def toInt? (x : Binary64) : Option Int :=
  match x.unpack with
  | .finite negative m e =>
    let (num, den) := ratio m e
    if num % den ≠ 0 then none
    else some (if negative then -(num / den : Nat) else (num / den : Nat))
  | _ => none

end Binary64

/-- A single precision number, by its bits. -/
structure Binary32 where
  /-- The bits, sign first. -/
  bits : UInt32
  deriving DecidableEq, Repr

namespace Binary32

/-- The number that the bits stand for. -/
def unpack (x : Binary32) : Unpacked := binary32.unpack x.bits.toNat

/-- A number from its sign and the remaining bits. -/
def ofParts (negative : Bool) (magnitude : Nat) : Binary32 :=
  ⟨UInt32.ofNat (binary32.withSign negative magnitude)⟩

/-- The single precision number nearest to a double precision one. -/
def ofBinary64 (x : Binary64) : Binary32 :=
  match x.unpack with
  | .nan => ⟨0x7fc00000⟩
  | .infinite negative => ofParts negative binary32.infinityBits
  | .finite negative m e =>
    let (num, den) := Binary64.ratio m e
    ofParts negative (binary32.round num den)

/-- The same number in double precision. -/
def toBinary64 (x : Binary32) : Binary64 :=
  match x.unpack with
  | .nan => .nan
  | .infinite negative => .ofParts negative binary64.infinityBits
  | .finite negative m e =>
    let (num, den) := Binary64.ratio m e
    .ofRatio negative num den

end Binary32

end CallCheck.Numeric

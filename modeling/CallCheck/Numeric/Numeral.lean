import CallCheck.Numeric.Binary

/-!
# Numerals

Reading numbers from texts outside JSON: integers in decimal with an optional sign, and the
general numerals for floating point numbers, which may also spell out an infinity.
-/

namespace CallCheck.Numeric

/-- One of the characters `0` to `9`. -/
def isDigit (c : Char) : Bool := decide ('0' ≤ c) && decide (c ≤ '9')

/-- The number that a list of digits writes, after the digits of `start`. -/
def natOfDigits (start : Nat) (ds : List Char) : Nat :=
  ds.foldl (fun n c ↦ n * 10 + (c.toNat - '0'.toNat)) start

/-- The number that a text of digits, at least one, writes. -/
def nat? (cs : List Char) : Option Nat :=
  if cs ≠ [] ∧ cs.all isDigit then some (natOfDigits 0 cs) else none

/-- An integer in decimal with an optional sign, if it lies between the bounds. Where no negative
number is allowed, no minus sign is. -/
def intIn? (low high : Int) (cs : List Char) : Option Int := do
  let i ← match cs with
    | '+' :: ds => (nat? ds).map Int.ofNat
    | '-' :: ds => if low < 0 then (nat? ds).map fun n ↦ -(n : Int) else none
    | ds => (nat? ds).map Int.ofNat
  if low ≤ i ∧ i ≤ high then some i else none

/-- A numeral's digits around the point and its exponent, before any rounding. -/
structure Numeral where
  /-- Digits before the point. -/
  whole : List Char
  /-- Digits after the point. -/
  fraction : List Char
  /-- The exponent, in decimal. -/
  exponent : Int
  deriving DecidableEq, Repr

/-- The decimal that a numeral writes. -/
def Numeral.decimal (n : Numeral) : Decimal :=
  ⟨natOfDigits 0 (n.whole ++ n.fraction), n.exponent - n.fraction.length⟩

/-- The exponent part of a numeral: nothing, or `e`, an optional sign and digits. -/
def exponentPart? : List Char → Option Int
  | [] => some 0
  | c :: cs =>
    if c = 'e' ∨ c = 'E' then
      match cs with
      | '+' :: ds => (nat? ds).map Int.ofNat
      | '-' :: ds => (nat? ds).map fun n ↦ -(n : Int)
      | ds => (nat? ds).map Int.ofNat
    else none

/-- A numeral without sign: digits with an optional point among or around them, at least one digit,
and an optional exponent. -/
def Numeral.ofChars? (cs : List Char) : Option Numeral :=
  let whole := cs.takeWhile isDigit
  let rest := cs.dropWhile isDigit
  let (fraction, rest) := match rest with
    | '.' :: ds => (ds.takeWhile isDigit, ds.dropWhile isDigit)
    | ds => ([], ds)
  if whole.isEmpty && fraction.isEmpty then none
  else (exponentPart? rest).map fun e ↦ ⟨whole, fraction, e⟩

/-- The magnitude that a numeral without sign writes, as bits of a format without their sign. -/
def Format.magnitude? (f : Format) (cs : List Char) : Option Nat :=
  match String.ofList (cs.map Char.toLower) with
  | "inf" | "infinity" => some f.infinityBits
  | "nan" => some (f.infinityBits + f.fractionBase / 2)
  | _ => (Numeral.ofChars? cs).map fun n ↦ f.ofDecimal n.decimal

/-- The bits of the number that a numeral writes. -/
def Format.ofNumeral? (f : Format) (cs : List Char) : Option Nat :=
  match cs with
  | '+' :: ds => f.magnitude? ds
  | '-' :: ds => (f.magnitude? ds).map (f.withSign true)
  | ds => f.magnitude? ds

/-- The double precision number that a numeral writes. -/
def Binary64.ofNumeral? (s : String) : Option Binary64 :=
  (binary64.ofNumeral? s.toList).map fun bits ↦ ⟨UInt64.ofNat bits⟩

/-- The single precision number that a numeral writes. -/
def Binary32.ofNumeral? (s : String) : Option Binary32 :=
  (binary32.ofNumeral? s.toList).map fun bits ↦ ⟨UInt32.ofNat bits⟩

end CallCheck.Numeric

import CallCheck.Json.Basic
import CallCheck.Numeric.Numeral

/-!
# JSON number literals

The value of a number literal. An integer that fits 64 bits, signed or unsigned, is kept as it is.
Every other literal is read as a double: its first digits that fit 64 bits, rounded, times or
divided by a rounded power of ten. That is exact for literals of everyday length and within a few
units of the last place otherwise. A literal beyond the largest finite number has no value.
-/

namespace CallCheck.Json

open Numeric

/-- The parts of a number literal. -/
structure Literal where
  /-- Whether it starts with a minus sign. -/
  negative : Bool
  /-- The digits before the point. -/
  whole : List Char
  /-- The digits after the point, if there is one. -/
  fraction : Option (List Char)
  /-- The sign and the digits of the exponent, if there is one. -/
  exponent : Option (Bool × List Char)
  deriving DecidableEq, Repr

/-- The exponent of a literal: nothing, or `e`, an optional sign and digits up to the end. -/
def Literal.exponent? : List Char → Option (Option (Bool × List Char))
  | [] => some none
  | c :: cs =>
    if c = 'e' ∨ c = 'E' then
      let (negative, ds) := match cs with
        | '+' :: ds => (false, ds)
        | '-' :: ds => (true, ds)
        | ds => (false, ds)
      if ds ≠ [] ∧ ds.all isDigit then some (some (negative, ds)) else none
    else none

/-- The literal that characters spell: an optional minus sign, digits without a needless leading
zero, an optional fraction and an optional exponent. -/
def Literal.ofChars? (cs : List Char) : Option Literal := do
  let (negative, cs) := match cs with
    | '-' :: rest => (true, rest)
    | rest => (false, rest)
  let whole := cs.takeWhile isDigit
  guard (whole ≠ [] ∧ (whole.head? = some '0' → whole.length = 1))
  let rest := cs.dropWhile isDigit
  match rest with
  | '.' :: ds =>
    let fraction := ds.takeWhile isDigit
    guard (fraction ≠ [])
    return { negative, whole, fraction := some fraction,
             exponent := ← exponent? (ds.dropWhile isDigit) }
  | _ => return { negative, whole, fraction := none, exponent := ← exponent? rest }

/-- The number that digits write after those of `significand`, as far as it fits 64 bits, and how
many digits were taken. -/
def accumulate (significand : Nat) : List Char → Nat × Nat
  | [] => (significand, 0)
  | c :: rest =>
    let next := significand * 10 + (c.toNat - '0'.toNat)
    if next < capacity 64 then
      let (n, taken) := accumulate next rest
      (n, taken + 1)
    else (significand, 0)

/-- The rounded power of ten. -/
def powerOfTen (k : Nat) : Binary64 := .ofRatio false (Nat.pow 10 k) 1

/-- A number times `10 ^ exponent`, by at most one multiplication or by divisions of at most
`10 ^ 308` each; `none` past the largest finite number. -/
def scale (x : Binary64) (exponent : Int) : Option Binary64 :=
  if exponent < -308 then
    if x.isZero then some x else scale (x.div (powerOfTen 308)) (exponent + 308)
  else if exponent < 0 then some (x.div (powerOfTen exponent.natAbs))
  else if exponent ≤ 308 then
    let y := x.mul (powerOfTen exponent.natAbs)
    if y.isFinite then some y else none
  else if x.isZero then some x
  else none
termination_by exponent.natAbs

/-- The exponent that a literal's exponent part writes, cut off where no number reaches. -/
def Literal.power (l : Literal) : Int :=
  match l.exponent with
  | none => 0
  | some (negative, ds) =>
    let n := min (natOfDigits 0 ds) (capacity 31)
    if negative then -(n : Int) else n

/-- The double that a literal writes. -/
def Literal.real? (l : Literal) : Option Binary64 :=
  let (significand, taken) := accumulate 0 l.whole
  let (significand, places) := accumulate significand (l.fraction.getD [])
  let exponent := (l.whole.length - taken : Int) - places + l.power
  (scale (.ofRatio false significand 1) exponent).map fun x ↦ if l.negative then x.neg else x

/-- The number that a literal writes. -/
def Literal.number? (l : Literal) : Option Number :=
  let n := natOfDigits 0 l.whole
  if l.fraction.isNone ∧ l.exponent.isNone ∧ l.negative = false ∧ n < capacity 64 then some (.int n)
  else if l.fraction.isNone ∧ l.exponent.isNone ∧ l.negative ∧ 0 < n ∧ n ≤ capacity 63 then
    some (.int (-n))
  else l.real?.map .real

end CallCheck.Json

import CallCheck.Numeric.Shortest

/-!
# Layouts of decimals

How the digits of a number are set out as text. Two layouts are in use: JSON text writes numbers
of moderate size positionally, always with a point, and the others with an exponent; plain text
writes every number positionally and a point only where digits follow it.
-/

namespace CallCheck.Numeric

/-- The decisions of a text format for numbers. -/
structure Layout where
  /-- Whether a number whose first digit counts `10 ^ e` is written positionally. -/
  positional : Int → Bool
  /-- Whether an integral number written positionally ends in `.0`. -/
  pointAlways : Bool

/-- JSON text: positional when the first digit counts a power from `10 ^ -5` to `10 ^ 15`. -/
def Layout.json : Layout := ⟨fun e ↦ decide (-5 ≤ e) && decide (e ≤ 15), true⟩

/-- Plain text: always positional, no empty fraction. -/
def Layout.plain : Layout := ⟨fun _ ↦ true, false⟩

/-- The decimal digits of a number. -/
def decimalDigits (n : Nat) : List Char := Nat.toDigits 10 n

namespace Layout

/-- Digits written with a point where the exponent says, and `0` on an empty side of it. -/
def setPoint (l : Layout) (ds : List Char) : Int → List Char
  | .ofNat e => ds ++ List.replicate e '0' ++ (if l.pointAlways then ['.', '0'] else [])
  | .negSucc e =>
    let places := e + 1
    if places < ds.length then
      ds.take (ds.length - places) ++ '.' :: ds.drop (ds.length - places)
    else '0' :: '.' :: (List.replicate (places - ds.length) '0' ++ ds)

/-- Digits written with one of them before the point, and the power of ten of that one. -/
def setExponent (ds : List Char) (e : Int) : List Char :=
  let head := match ds with
    | [] => []
    | [d] => [d]
    | d :: rest => d :: '.' :: rest
  let sign := if e < 0 then '-' else '+'
  head ++ 'e' :: sign :: decimalDigits e.natAbs

/-- A decimal set out in a layout. -/
def decimal (l : Layout) (d : Decimal) : List Char :=
  let ds := decimalDigits d.digits
  let first := d.exponent + ds.length - 1
  if l.positional first then l.setPoint ds d.exponent else setExponent ds first

/-- A finite number set out in a layout, with its sign. -/
def finite (l : Layout) (negative : Bool) (m : Nat) (q : Int) : List Char :=
  let d := if m = 0 then ⟨0, 0⟩ else binary64.shortest m q
  (if negative then ['-'] else []) ++ l.decimal d

end Layout

namespace Binary64

/-- A number in plain text. -/
def plainText (x : Binary64) : String :=
  match x.unpack with
  | .nan => "NaN"
  | .infinite negative => if negative then "-inf" else "inf"
  | .finite negative m q => String.ofList (Layout.plain.finite negative m q)

/-- A number in JSON text, which has no other way to write what is not finite than `null`. -/
def jsonText (x : Binary64) : String :=
  match x.unpack with
  | .finite negative m q => String.ofList (Layout.json.finite negative m q)
  | _ => "null"

end Binary64

end CallCheck.Numeric

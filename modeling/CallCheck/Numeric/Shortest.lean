import CallCheck.Numeric.Binary

/-!
# Shortest decimals

The fewest decimal digits that read back as a given floating point number, and of those the
nearest to it. The reals that round to `m * 2 ^ q` form an interval, which holds its ends exactly
when `m` is even. The search goes down the powers of ten: on the grid of multiples of a power,
the interval holds a point if and only if it holds one of the value's two neighbours, so the first
grid with a hit has the shortest decimals.
-/

namespace CallCheck.Numeric

/-- The reals that round to one number, as numerators over a common denominator. -/
structure Interval where
  /-- The lower end. -/
  low : Nat
  /-- The number itself. -/
  value : Nat
  /-- The upper end. -/
  high : Nat
  /-- The common denominator. -/
  den : Nat
  /-- Whether the two ends belong to it. -/
  closed : Bool
  deriving Repr

namespace Interval

/-- The reals that round to `m * 2 ^ q` in a format. Below a power of two the numbers lie closer,
save at the smallest exponent. -/
def ofFinite (f : Format) (m : Nat) (q : Int) : Interval :=
  let narrow := m == f.fractionBase && decide (f.minExponent < q)
  let low := if narrow then 4 * m - 1 else 4 * m - 2
  let (scale, den) := Binary64.ratio 1 (q - 2)
  { low := low * scale, value := 4 * m * scale, high := (4 * m + 2) * scale, den,
    closed := m % 2 == 0 }

/-- Whether a fraction with the interval's denominator lies in it. -/
def holds (i : Interval) (n : Nat) : Bool :=
  if i.closed then decide (i.low ≤ n) && decide (n ≤ i.high)
  else decide (i.low < n) && decide (n < i.high)

/-- All numerators and the denominator times a number each. -/
def scaled (i : Interval) (num den : Nat) : Interval :=
  { i with low := i.low * num, value := i.value * num, high := i.high * num, den := i.den * den }

/-- The interval counted in units of `10 ^ k`. -/
def inPowers (i : Interval) : Int → Interval
  | .ofNat k => i.scaled 1 (Nat.pow 10 k)
  | .negSucc k => i.scaled (Nat.pow 10 (k + 1)) 1

/-- The integer in the interval that is nearest to its value, if it holds one of the two
neighbours of the value; an exact tie goes to the even one. -/
def nearest? (i : Interval) : Option Nat :=
  let below := i.value / i.den
  let above := below + 1
  match i.holds (below * i.den), i.holds (above * i.den) with
  | true, true =>
    let rest := i.value % i.den
    some (if 2 * rest < i.den ∨ (2 * rest = i.den ∧ below % 2 = 0) then below else above)
  | true, false => some below
  | false, true => some above
  | false, false => none

/-- The first power of ten, from `k` downwards, whose multiples the interval holds. -/
def search (i : Interval) : Nat → Int → Decimal
  | 0, k => ⟨0, k⟩
  | steps + 1, k =>
    match (i.inPowers k).nearest? with
    | some digits => ⟨digits, k⟩
    | none => i.search steps (k - 1)

end Interval

/-- The shortest decimal that rounds to the number `m * 2 ^ q` of a format. -/
def Format.shortest (f : Format) (m : Nat) (q : Int) : Decimal :=
  let top := (m.log2 + 1 + q) * 30103 / 100000 + 1
  (Interval.ofFinite f m q).search (f.precision + 8) top

end CallCheck.Numeric

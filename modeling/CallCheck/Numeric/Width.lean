/-!
# Widths in bits

How many integers a width in bits has, and which ones. Powers of two are written as capacities, so
that a bound says of which width it is.
-/

namespace CallCheck.Numeric

/-- The number of integers of a width. -/
def capacity (bits : Nat) : Nat := Nat.pow 2 bits

/-- The largest integer of a width, without a sign. -/
def maxUnsigned (bits : Nat) : Nat := capacity bits - 1

/-- The largest integer of a width, two's complement. -/
def maxSigned (bits : Nat) : Nat := capacity (bits - 1) - 1

/-- The least integer of a width, two's complement. -/
def minSigned (bits : Nat) : Int := -capacity (bits - 1)

/-- Whether an integer has a width, two's complement. -/
def hasWidth (bits : Nat) (i : Int) : Bool :=
  decide (minSigned bits ≤ i) && decide (i ≤ maxSigned bits)

theorem hasWidth_iff {bits : Nat} {i : Int} :
    hasWidth bits i ↔ minSigned bits ≤ i ∧ i ≤ maxSigned bits := by
  simp [hasWidth]

theorem capacity_pos (bits : Nat) : 0 < capacity bits := Nat.pow_pos (by decide)

theorem capacity_succ (bits : Nat) : capacity (bits + 1) = 2 * capacity bits :=
  (Nat.pow_succ' : Nat.pow 2 (bits + 1) = _)

end CallCheck.Numeric

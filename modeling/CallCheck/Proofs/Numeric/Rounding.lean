import CallCheck.Numeric.Binary
import Mathlib.Algebra.Order.Field.Power
import Mathlib.Data.Rat.Cast.Order
import Mathlib.Tactic.FieldSimp
import Mathlib.Tactic.Positivity
import Mathlib.Tactic.Ring

/-!
# Bounds of rounded numbers

What is at most a power of two is rounded to a number that is at most that power (`Within`).
So rounding what is not too large leaves a finite number, and so does dividing it by one or more.

## Main statements

`within_ofRatio`: a fraction up to a power of two, rounded. `toInt?_ofInt`: an integer of 64 bits
with the highest one set is rounded to a multiple of 2048.
-/

namespace CallCheck.Numeric

variable {num den k : Nat} {x y : Binary64}

/-! ## Quotients -/

theorem roundDiv_le {bound : Nat} (hden : 0 < den) (h : num ≤ den * bound) :
    roundDiv num den ≤ bound := by
  have hdiv : num / den ≤ bound := Nat.div_le_of_le_mul h
  have hrest : num / den = bound → num % den = 0 := by
    rintro rfl
    have hsum := Nat.div_add_mod num den
    omega
  rw [roundDiv]
  split
  · exact hdiv
  · have hlt : num / den < bound := lt_of_le_of_ne hdiv fun heq ↦ by
      have hzero := hrest heq
      omega
    split <;> omega

/-- A rounded quotient is off by half at most. -/
theorem roundDiv_dist (num : Nat) (hden : 0 < den) :
    2 * num ≤ 2 * (den * roundDiv num den) + den ∧
      2 * (den * roundDiv num den) ≤ 2 * num + den := by
  have hsum := Nat.div_add_mod num den
  have hlt := Nat.mod_lt num hden
  have hsucc : den * (num / den + 1) = den * (num / den) + den := Nat.mul_succ _ _
  rw [roundDiv]
  split
  · omega
  · split
    · rw [hsucc]
      omega
    · rcases Nat.mod_two_eq_zero_or_one (num / den) with hmod | hmod
      · rw [hmod, Nat.add_zero]
        omega
      · rw [hmod, hsucc]
        omega

theorem mul_roundDiv_eq_iff (hden : 0 < den) : den * roundDiv num den = num ↔ den ∣ num := by
  refine ⟨fun h ↦ ⟨_, h.symm⟩, ?_⟩
  rintro ⟨n, rfl⟩
  rw [roundDiv, Nat.mul_mod_right, if_pos (by omega), Nat.mul_div_cancel_left _ hden]

/-! ## Fractions -/

theorem cast_capacity (bits : Nat) : (capacity bits : ℚ) = 2 ^ (bits : ℤ) := by
  rw [capacity]
  simp

theorem ratio_pos (m : Nat) (e : Int) : 0 < (Binary64.ratio m e).2 := by
  cases e with
  | ofNat e => exact Nat.one_pos
  | negSucc e => exact capacity_pos _

theorem ratio_eq (m : Nat) (e : Int) :
    ((Binary64.ratio m e).1 : ℚ) / (Binary64.ratio m e).2 = m * 2 ^ e := by
  cases e with
  | ofNat e => simp [Binary64.ratio, cast_capacity]
  | negSucc e =>
    rw [Binary64.ratio, cast_capacity, Int.negSucc_eq, zpow_neg, ← div_eq_mul_inv, Nat.cast_succ]

theorem descale_pos (num : Nat) (hden : 0 < den) (q : Int) : 0 < (Format.descale num den q).2 := by
  cases q with
  | ofNat q => exact Nat.mul_pos hden (capacity_pos q)
  | negSucc q => exact hden

theorem descale_eq (q : Int) : ((Format.descale num den q).1 : ℚ) / (Format.descale num den q).2 =
    num / den / 2 ^ q := by
  cases q with
  | ofNat q => simp [Format.descale, cast_capacity, div_div]
  | negSucc q =>
    simp only [Format.descale, Nat.cast_mul, cast_capacity, Int.negSucc_eq, zpow_neg,
      Nat.cast_succ, div_inv_eq_mul]
    ring

theorem roundDiv_descale_le (hden : 0 < den) {q : Int} {bits : Nat}
    (h : (num : ℚ) / den ≤ 2 ^ (q + bits)) :
    roundDiv (Format.descale num den q).1 (Format.descale num den q).2 ≤ capacity bits := by
  have hpos := descale_pos num hden q
  refine roundDiv_le hpos ?_
  have hscaled : ((Format.descale num den q).1 : ℚ) / (Format.descale num den q).2 ≤
      capacity bits := by
    rw [descale_eq, cast_capacity, div_le_iff₀ (by positivity), ← zpow_add₀ two_ne_zero, add_comm]
    exact h
  rw [div_le_iff₀ (by exact_mod_cast hpos), mul_comm] at hscaled
  exact_mod_cast hscaled

/-! ## Rounded fractions -/

theorem zpow_log2_le (h : num ≠ 0) : (2 : ℚ) ^ (num.log2 : ℤ) ≤ num := by
  rw [zpow_natCast]
  exact_mod_cast Nat.log2_self_le h

theorem lt_zpow_log2 (num : Nat) : (num : ℚ) < 2 ^ ((num.log2 : ℤ) + 1) := by
  have hlt : num < 2 ^ (num.log2 + 1) := Nat.lt_log2_self
  exact_mod_cast hlt

/-- A fraction lies within a factor of two of the power of two that the bit lengths give. -/
theorem ratio_bounds (hnum : num ≠ 0) (hden : den ≠ 0) :
    (2 : ℚ) ^ ((num.log2 : ℤ) - den.log2 - 1) < num / den ∧
      (num : ℚ) / den < 2 ^ ((num.log2 : ℤ) - den.log2 + 1) := by
  have hpos : (0 : ℚ) < den := by exact_mod_cast Nat.pos_of_ne_zero hden
  constructor
  · rw [lt_div_iff₀ hpos]
    calc (2 : ℚ) ^ ((num.log2 : ℤ) - den.log2 - 1) * den
        < 2 ^ ((num.log2 : ℤ) - den.log2 - 1) * 2 ^ ((den.log2 : ℤ) + 1) := by
          gcongr
          exact lt_zpow_log2 den
      _ = 2 ^ (num.log2 : ℤ) := by
          rw [← zpow_add₀ two_ne_zero]
          congr 1
          omega
      _ ≤ num := zpow_log2_le hnum
  · rw [div_lt_iff₀ hpos]
    calc (num : ℚ) < 2 ^ ((num.log2 : ℤ) + 1) := lt_zpow_log2 num
      _ = 2 ^ ((num.log2 : ℤ) - den.log2 + 1) * 2 ^ (den.log2 : ℤ) := by
          rw [← zpow_add₀ two_ne_zero]
          congr 1
          omega
      _ ≤ 2 ^ ((num.log2 : ℤ) - den.log2 + 1) * den := by
          gcongr
          exact zpow_log2_le hden

/-- The power of two that the lowest bit of a rounded fraction counts. -/
def roundExponent (num den : Nat) : Int :=
  let low := max ((num.log2 : Int) - den.log2 - 53) (-1074)
  if capacity 53 ≤ (Format.descale num den low).1 / (Format.descale num den low).2 then low + 1
  else low

theorem round_eq (hnum : num ≠ 0) : binary64.round num den =
    min ((roundExponent num den + 1074).toNat * capacity 52 +
      roundDiv (Format.descale num den (roundExponent num den)).1
        (Format.descale num den (roundExponent num den)).2) binary64.infinityBits := by
  rw [Format.round, if_neg hnum]
  rfl

theorem round_le_infinityBits (num den : Nat) : binary64.round num den ≤ binary64.infinityBits := by
  by_cases hnum : num = 0
  · rw [hnum]
    exact Nat.zero_le _
  · rw [round_eq hnum]
    exact Nat.min_le_right _ _

/-- The significand of a rounded fraction does not need more bits than there are. -/
theorem ratio_le_roundExponent (hnum : num ≠ 0) (hden : 0 < den) :
    (num : ℚ) / den ≤ 2 ^ (roundExponent num den + (53 : ℕ)) := by
  rw [roundExponent]
  generalize hlow : max ((num.log2 : Int) - den.log2 - 53) (-1074) = low
  split
  · refine (ratio_bounds hnum hden.ne').2.le.trans (zpow_le_zpow_right₀ one_le_two ?_)
    push_cast
    omega
  · rename_i hsmall
    have hpos := descale_pos num hden low
    have hlt := (Nat.div_lt_iff_lt_mul hpos).1 (Nat.lt_of_not_le hsmall)
    have hscaled : (num : ℚ) / den / 2 ^ low < capacity 53 := by
      rw [← descale_eq, div_lt_iff₀ (by exact_mod_cast hpos)]
      exact_mod_cast hlt
    rw [div_lt_iff₀ (by positivity), cast_capacity, ← zpow_add₀ two_ne_zero, add_comm] at hscaled
    exact hscaled.le

/-- **What is at most a power of two is rounded to that at most**: the bits are no more than those
of the power. -/
theorem round_le (hden : 0 < den) (h : (num : ℚ) / den ≤ 2 ^ (k : ℤ)) :
    binary64.round num den ≤ (k + 1023) * capacity 52 := by
  by_cases hnum : num = 0
  · rw [hnum]
    exact Nat.zero_le _
  obtain ⟨hlow, hhigh⟩ := ratio_bounds hnum hden.ne'
  have hestimate : (num.log2 : ℤ) - den.log2 - 1 < k :=
    (zpow_lt_zpow_iff_right₀ one_lt_two).1 (hlow.trans_le h)
  have hexponent : roundExponent num den ≤ k - 52 := by
    rw [roundExponent]
    split <;> omega
  have hbound : (num : ℚ) / den ≤ 2 ^ (roundExponent num den + (53 : ℕ)) :=
    ratio_le_roundExponent hnum hden
  rw [round_eq hnum]
  refine (Nat.min_le_left _ _).trans ?_
  -- one power below the last, the significand may be as large as two of its lowest
  rcases hexponent.lt_or_eq with hlt | heq
  · have hquotient := roundDiv_descale_le hden hbound
    rw [capacity_succ] at hquotient
    have hfields : (roundExponent num den + 1074).toNat + 2 ≤ k + 1023 := by omega
    calc _ ≤ (roundExponent num den + 1074).toNat * capacity 52 + 2 * capacity 52 :=
          Nat.add_le_add_left hquotient _
      _ = ((roundExponent num den + 1074).toNat + 2) * capacity 52 := (Nat.add_mul _ _ _).symm
      _ ≤ (k + 1023) * capacity 52 := Nat.mul_le_mul_right _ hfields
  · have hpower : (2 : ℚ) ^ (k : ℤ) = 2 ^ (roundExponent num den + (52 : ℕ)) := by
      rw [heq]
      congr 1
      omega
    have hquotient := roundDiv_descale_le hden (hpower ▸ h)
    have hfields : (roundExponent num den + 1074).toNat + 1 ≤ k + 1023 := by omega
    calc _ ≤ (roundExponent num den + 1074).toNat * capacity 52 + 1 * capacity 52 := by
          rw [Nat.one_mul]
          exact Nat.add_le_add_left hquotient _
      _ = ((roundExponent num den + 1074).toNat + 1) * capacity 52 := (Nat.add_mul _ _ _).symm
      _ ≤ (k + 1023) * capacity 52 := Nat.mul_le_mul_right _ hfields

/-! ## Finite numbers -/

/-- The bits of a number without its sign. -/
def Binary64.magnitude (x : Binary64) : Nat := x.bits.toNat % binary64.signWeight

/-- The exponent field of a number. -/
def Binary64.field (x : Binary64) : Nat := x.magnitude / capacity 52

/-- The fraction field of a number. -/
def Binary64.fraction (x : Binary64) : Nat := x.magnitude % capacity 52

/-- The sign of a number. -/
def Binary64.isNegative (x : Binary64) : Bool := x.bits.toNat / binary64.signWeight % 2 == 1

theorem Binary64.unpack_eq (x : Binary64) : x.unpack =
    if x.field = maxUnsigned 11 then if x.fraction = 0 then .infinite x.isNegative else .nan
    else if x.field = 0 then .finite x.isNegative x.fraction (-1074)
    else .finite x.isNegative (x.fraction + capacity 52) (-1074 + x.field - 1) := by
  have hfraction : x.fraction = x.bits.toNat % capacity 52 := Nat.mod_mul_left_mod _ _ _
  rw [hfraction]
  rfl

theorem isFinite_iff : x.isFinite = true ↔ x.field ≠ maxUnsigned 11 := by
  rw [Binary64.isFinite, x.unpack_eq]
  by_cases hfield : x.field = maxUnsigned 11
  · rw [if_pos hfield]
    by_cases hfraction : x.fraction = 0 <;> simp [hfield, hfraction]
  · rw [if_neg hfield]
    refine ⟨fun _ ↦ hfield, fun _ ↦ ?_⟩
    by_cases hzero : x.field = 0 <;> simp [hzero]

/-- A finite number of at most a power of two, sign aside. -/
def Within (k : Nat) (x : Binary64) : Prop :=
  ∃ negative m e, x.unpack = .finite negative m e ∧ (m : ℚ) * 2 ^ e ≤ 2 ^ (k : ℤ)

theorem Within.isFinite (h : Within k x) : x.isFinite = true := by
  obtain ⟨negative, m, e, hx, -⟩ := h
  rw [Binary64.isFinite, hx]

theorem within_of_magnitude_le (hk : k < 1024) (h : x.magnitude ≤ (k + 1023) * capacity 52) :
    Within k x := by
  have hx := x.unpack_eq
  have hsum : x.field * capacity 52 + x.fraction = x.magnitude := Nat.div_add_mod' _ _
  have hfield : x.field ≤ k + 1023 := Nat.div_le_of_le_mul (Nat.mul_comm _ _ ▸ h)
  have hfraction : (x.fraction : ℚ) ≤ 2 ^ (52 : ℤ) := by
    rw [← Nat.cast_ofNat (R := ℤ), ← cast_capacity]
    exact_mod_cast (Nat.mod_lt x.magnitude (capacity_pos 52)).le
  have hmax : maxUnsigned 11 = 2047 := rfl
  rw [if_neg (by omega)] at hx
  split at hx
  · refine ⟨_, _, _, hx, ?_⟩
    calc (x.fraction : ℚ) * 2 ^ (-1074 : ℤ) ≤ 2 ^ (52 : ℤ) * 2 ^ (-1074 : ℤ) := by gcongr
      _ = 2 ^ (-1022 : ℤ) := by rw [← zpow_add₀ two_ne_zero]; norm_num
      _ ≤ 2 ^ (k : ℤ) := zpow_le_zpow_right₀ one_le_two (by omega)
  · refine ⟨_, _, _, hx, ?_⟩
    rw [Nat.cast_add, cast_capacity]
    rcases hfield.lt_or_eq with hless | heq
    · calc ((x.fraction : ℚ) + 2 ^ (52 : ℤ)) * 2 ^ (-1074 + (x.field : ℤ) - 1)
          ≤ (2 ^ (52 : ℤ) + 2 ^ (52 : ℤ)) * 2 ^ (-1074 + (x.field : ℤ) - 1) := by gcongr
        _ = 2 ^ ((x.field : ℤ) - 1022) := by
          rw [← two_mul, ← zpow_one_add₀ two_ne_zero, ← zpow_add₀ two_ne_zero]
          congr 1
          omega
        _ ≤ 2 ^ (k : ℤ) := zpow_le_zpow_right₀ one_le_two (by omega)
    · have hzero : x.fraction = 0 := by
        rw [heq] at hsum
        omega
      rw [hzero, Nat.cast_zero, zero_add, ← zpow_add₀ two_ne_zero]
      exact zpow_le_zpow_right₀ one_le_two (by omega)

theorem magnitude_ofParts (negative : Bool) {bits : Nat} (h : bits < binary64.signWeight) :
    (Binary64.ofParts negative bits).magnitude = bits := by
  have hweight : binary64.signWeight = 9223372036854775808 := rfl
  rw [Binary64.magnitude, Binary64.ofParts, Format.withSign, UInt64.toNat_ofNat']
  rw [hweight] at h ⊢
  split <;> omega

theorem isNegative_ofParts (negative : Bool) {bits : Nat} (h : bits < binary64.signWeight) :
    (Binary64.ofParts negative bits).isNegative = negative := by
  have hweight : binary64.signWeight = 9223372036854775808 := rfl
  rw [Binary64.isNegative, Binary64.ofParts, Format.withSign, UInt64.toNat_ofNat']
  rw [hweight] at h ⊢
  cases negative with
  | false => exact beq_eq_false_iff_ne.2 (by simp; omega)
  | true => exact beq_iff_eq.2 (by simp; omega)

/-- **A fraction that is at most a power of two, rounded.** -/
theorem within_ofRatio (negative : Bool) (hk : k < 1024) (hden : 0 < den)
    (h : (num : ℚ) / den ≤ 2 ^ (k : ℤ)) : Within k (.ofRatio negative num den) := by
  have hbits : binary64.round num den < binary64.signWeight :=
    (round_le_infinityBits num den).trans_lt (by decide)
  refine within_of_magnitude_le hk ?_
  rw [Binary64.ofRatio, magnitude_ofParts negative hbits]
  exact round_le hden h

theorem Within.div {negative : Bool} {n : Nat} {f : Int} (hk : k < 1024) (hx : Within k x)
    (hy : y.unpack = .finite negative n f) (hn : 1 ≤ (n : ℚ) * 2 ^ f) : Within k (x.div y) := by
  obtain ⟨negative', m, e, hx, hm⟩ := hx
  have hnpos : 0 < n := by
    refine Nat.pos_of_ne_zero fun hzero ↦ ?_
    rw [hzero, Nat.cast_zero, zero_mul] at hn
    exact absurd hn (by norm_num)
  rw [Binary64.div, hx, hy]
  change Within k (.ofRatio _ (Binary64.ratio m (e - f)).1 ((Binary64.ratio m (e - f)).2 * n))
  refine within_ofRatio _ hk (Nat.mul_pos (ratio_pos m (e - f)) hnpos) ?_
  rw [Nat.cast_mul, ← div_div, ratio_eq, zpow_sub₀ two_ne_zero, ← mul_div_assoc, div_div,
    mul_comm _ (n : ℚ)]
  exact (div_le_self (by positivity) hn).trans hm

theorem isFinite_neg (h : x.isFinite = true) : x.neg.isFinite = true := by
  have hmagnitude : x.neg.magnitude = x.magnitude := by
    have hweight : binary64.signWeight = 2 ^ 63 := rfl
    rw [Binary64.magnitude, Binary64.magnitude, Binary64.neg, UInt64.toNat_xor, hweight,
      Nat.xor_mod_two_pow]
    exact Nat.xor_zero _
  rw [isFinite_iff] at h ⊢
  rwa [Binary64.field, hmagnitude]

/-! ## Integers of 64 bits -/

theorem toInt?_of_unpack {m e : Nat} (hx : x.unpack = .finite false m e) :
    x.toInt? = some ((m * capacity e : Nat) : ℤ) := by
  rw [Binary64.toInt?, hx]
  change (if m * capacity e % 1 ≠ 0 then none else some ((m * capacity e / 1 : Nat) : ℤ)) = _
  rw [Nat.mod_one, if_neg (by decide), Nat.div_one]

/-- The bits of an integer with the highest of 64 bits set, rounded: the lowest one counts 2048. -/
theorem round_of_le (hlow : capacity 63 ≤ num) (hhigh : num < capacity 64) :
    binary64.round num 1 = 1085 * capacity 52 + roundDiv num 2048 := by
  have hnum : num ≠ 0 := Nat.ne_zero_of_lt ((capacity_pos 63).trans_le hlow)
  have hlog : num.log2 = 63 := (Nat.log2_eq_iff hnum).2 ⟨hlow, hhigh⟩
  have hexponent : roundExponent num 1 = 11 := by
    have hlarge : capacity 53 ≤ num / capacity 10 :=
      (Nat.le_div_iff_mul_le (capacity_pos 10)).2 hlow
    rw [roundExponent, hlog]
    exact if_pos hlarge
  have hle : roundDiv num 2048 ≤ capacity 53 := roundDiv_le (by decide) hhigh.le
  rw [round_eq hnum, hexponent]
  exact Nat.min_eq_left ((Nat.add_le_add_left hle _).trans (by decide))

/-- **An integer with the highest of 64 bits set is rounded to a multiple of 2048.** -/
theorem toInt?_ofInt (hlow : capacity 63 ≤ num) (hhigh : num < capacity 64) :
    (Binary64.ofInt num).toInt? = some ((2048 * roundDiv num 2048 : Nat) : ℤ) := by
  have hround := round_of_le hlow hhigh
  have hfull : capacity 52 ≤ roundDiv num 2048 := by
    have hdist := (roundDiv_dist num (show 0 < 2048 by decide)).1
    have hnum : 9223372036854775808 ≤ num := hlow
    have hcapacity : capacity 52 = 4503599627370496 := rfl
    omega
  have hle : roundDiv num 2048 ≤ 2 * capacity 52 := roundDiv_le (by decide) hhigh.le
  generalize roundDiv num 2048 = significand at *
  have hbits : 1085 * capacity 52 + significand < binary64.signWeight :=
    (Nat.add_le_add_left hle _).trans_lt (by decide)
  generalize hx : Binary64.ofInt num = x
  have hparts : x = .ofParts false (1085 * capacity 52 + significand) := by
    rw [← hx, Binary64.ofInt, Binary64.ofRatio, Int.natAbs_natCast, hround]
    rfl
  have hmagnitude : x.magnitude = 1085 * capacity 52 + significand :=
    hparts ▸ magnitude_ofParts false hbits
  have hnegative : x.isNegative = false := hparts ▸ isNegative_ofParts false hbits
  have hunpack := x.unpack_eq
  rw [hnegative, Binary64.field, Binary64.fraction, hmagnitude] at hunpack
  have hcapacity : capacity 52 = 4503599627370496 := rfl
  -- the significand is full, or is one too large and counts as half of the next power
  rcases hle.lt_or_eq with hlt | rfl
  · have hfield : (1085 * capacity 52 + significand) / capacity 52 = 1086 := by
      rw [hcapacity]
      omega
    have hfraction : (1085 * capacity 52 + significand) % capacity 52 + capacity 52 =
        significand := by
      rw [hcapacity]
      omega
    rw [hfield, hfraction] at hunpack
    rw [toInt?_of_unpack (e := 11) hunpack, Nat.mul_comm]
    rfl
  · rw [toInt?_of_unpack (e := 12) hunpack]
    rfl

end CallCheck.Numeric

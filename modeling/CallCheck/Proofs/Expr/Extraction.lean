import CallCheck.Expr.Value
import CallCheck.Proofs.Json.Numbers

/-!
# Taking values out of JSON

What is taken out of a document and what goes back into one are the same, except for integers by
themselves that need all of 64 bits: a value has 64 bits with a sign, so they become doubles.

## Main statement

`extraction_exact`: a document with numbers that a reader gives comes back as it was, unless it is
such an integer, and then it is the nearest multiple of 2048; and every value that has a JSON form
of its own comes back as it was.
-/

namespace CallCheck.Expr

open Numeric

/-- A value that has a JSON form of its own: no bytes, no reference and no number that is not
finite. -/
def Value.IsData : Value → Prop
  | .float x => x.isFinite = true
  | .bytes _ | .handle _ => False
  | _ => True

theorem hasWidth_toInt (i : Int64) : hasWidth 64 i.toInt = true := by
  have hlow : -2 ^ 63 ≤ i.toInt := i.le_toInt
  have hhigh : i.toInt < 2 ^ 63 := i.toInt_lt
  have hmin : minSigned 64 = -2 ^ 63 := rfl
  have hmax : (maxSigned 64 : ℤ) = 2 ^ 63 - 1 := rfl
  rw [hasWidth_iff]
  omega

theorem toInt_ofInt_of_hasWidth {i : ℤ} (h : hasWidth 64 i = true) : (Int64.ofInt i).toInt = i := by
  have hmin : minSigned 64 = -2 ^ 63 := rfl
  have hmax : (maxSigned 64 : ℤ) = 2 ^ 63 - 1 := rfl
  rw [hasWidth_iff] at h
  exact Int64.toInt_ofInt_of_le (by omega) (by omega)

theorem Value.IsData.ofJson_toJson {v : Value} (h : v.IsData) : Value.ofJson v.toJson = v := by
  cases v with
  | null | bool b | string s | array items | object members => rfl
  | int i =>
    rw [Value.toJson, Value.ofJson, Value.ofNumber, if_pos (hasWidth_toInt i), Int64.ofInt_toInt]
  | float x =>
    have hx : x.isFinite = true := h
    rw [Value.toJson, if_pos hx]
    rfl
  | bytes bs => exact h.elim
  | handle handle => exact h.elim

theorem toJson_ofJson {j : Json} (h : j.InRange) (hwidth : ∀ i : ℤ, j = .int i → i < capacity 63) :
    (Value.ofJson j).toJson = j := by
  cases j with
  | null | bool b | string s | array items | object members => rfl
  | number n =>
    cases n with
    | real x =>
      have hx : x.isFinite = true := h
      rw [Value.ofJson, Value.ofNumber, Value.toJson, if_pos hx]
    | int i =>
      have hlow : -(capacity 63 : ℤ) ≤ i := h.1
      have hi : hasWidth 64 i = true :=
        hasWidth_iff.2 ⟨hlow, Int.le_sub_one_of_lt (hwidth i rfl)⟩
      rw [Value.ofJson, Value.ofNumber, if_pos hi, Value.toJson, toInt_ofInt_of_hasWidth hi]

/-- An integer that needs all of 64 bits is taken out of a document as the nearest double. -/
theorem ofJson_wide {i : Nat} (hlow : capacity 63 ≤ i) :
    Value.ofJson (.int i) = .float (.ofInt i) := by
  have hmax : (maxSigned 64 : ℤ) = capacity 63 - 1 := rfl
  have hwidth : ¬ hasWidth 64 i = true := by
    rw [hasWidth_iff]
    omega
  rw [Value.ofJson, Value.ofNumber, if_neg hwidth]

theorem isFinite_of_toInt? {x : Binary64} {n : ℤ} (h : x.toInt? = some n) : x.isFinite = true := by
  rw [Binary64.toInt?] at h
  rw [Binary64.isFinite]
  split at h
  · rfl
  · cases h

/-- **Extraction is exact.** A document whose numbers are such as readers give comes back as it was
if it is no integer that needs all of 64 bits. An integer that does is taken out as a double and
comes back as the multiple of 2048 nearest to it, which is the integer itself just when that is a
multiple of 2048. Every value that has a JSON form of its own comes back from it. -/
theorem extraction_exact :
    (∀ j : Json, j.InRange → (∀ i : ℤ, j = .int i → i < capacity 63) →
      (Value.ofJson j).toJson = j) ∧
    (∀ i : Nat, capacity 63 ≤ i → i < capacity 64 →
      Value.ofJson (.int i) = .float (.ofInt i) ∧
      (Value.ofJson (.int i)).toJson = .number (.real (.ofInt i)) ∧
      (Binary64.ofInt i).toInt? = some ((2048 * roundDiv i 2048 : Nat) : ℤ) ∧
      i ≤ 2048 * roundDiv i 2048 + 1024 ∧ 2048 * roundDiv i 2048 ≤ i + 1024 ∧
      (2048 * roundDiv i 2048 = i ↔ 2048 ∣ i)) ∧
    (∀ v : Value, v.IsData → Value.ofJson v.toJson = v) ∧
    (∀ text j, Json.read? text = some j ∨ Json.parse? text = some j → j.InRange) ∧
    ∀ bytes j, Json.parseBytes? bytes = some j → j.InRange := by
  refine ⟨fun j ↦ toJson_ofJson, fun i hlow hhigh ↦ ?_, fun v ↦ Value.IsData.ofJson_toJson,
    fun text j h ↦ ?_, fun bytes j ↦ Json.inRange_of_parseBytes?⟩
  · have hvalue := ofJson_wide hlow
    have hint := toInt?_ofInt hlow hhigh
    have hdist := roundDiv_dist i (show 0 < 2048 by decide)
    refine ⟨hvalue, ?_, hint, by omega, by omega, mul_roundDiv_eq_iff (by decide)⟩
    rw [hvalue, Value.toJson, if_pos (isFinite_of_toInt? hint)]
  · exact h.elim Json.inRange_of_read? Json.inRange_of_parse?

/-- The largest integer that 64 bits with a sign hold, the one after it, and a negative zero. -/
theorem extraction_exact_edges :
    (Value.ofJson (.int 9223372036854775807)).toJson = .int 9223372036854775807 ∧
      (Value.ofJson (.int (9223372036854775808 : Nat))).toJson =
        .number (.real (.ofInt (9223372036854775808 : Nat))) ∧
      (Binary64.ofInt (9223372036854775808 : Nat)).toInt? =
        some ((2048 * roundDiv 9223372036854775808 2048 : Nat) : ℤ) ∧
      2048 * roundDiv 9223372036854775808 2048 = 9223372036854775808 ∧
      Value.ofJson (Value.float ⟨0x8000000000000000⟩).toJson = .float ⟨0x8000000000000000⟩ := by
  obtain ⟨hdocument, hwide, hvalue, -, -⟩ := extraction_exact
  have hlast : (Value.ofJson (.int 9223372036854775807)).toJson = .int 9223372036854775807 := by
    refine hdocument _ ⟨by decide, by decide⟩ fun i hi ↦ ?_
    cases hi
    decide
  obtain ⟨-, hback, hint, -, -, hsame⟩ := hwide 9223372036854775808 (by decide) (by decide)
  have hzero : (Value.float ⟨0x8000000000000000⟩).IsData := by
    rw [Value.IsData]
    decide +kernel
  exact ⟨hlast, hback, hint, hsame.2 (by decide), hvalue _ hzero⟩

/-- The largest integer of 64 bits is read as it is and comes back as the power of two after it. -/
theorem toJson_ofJson_largest :
    Json.parse? "18446744073709551615" = some (.int 18446744073709551615) ∧
      (Value.ofJson (.int 18446744073709551615)).toJson =
        .number (.real ⟨0x43f0000000000000⟩) ∧
      (⟨0x43f0000000000000⟩ : Binary64).toInt? = some 18446744073709551616 ∧
      (Value.ofJson (.int 18446744073709551615)).toJson ≠ .int 18446744073709551615 := by
  have hread : Json.read? (Json.int 18446744073709551615).text =
      some (.int 18446744073709551615) :=
    Json.read?_text (Json.Number.readable_int (by decide) (by decide))
  have htext : (Json.int 18446744073709551615).text = "18446744073709551615" := by decide +kernel
  have hdouble : Binary64.ofInt (18446744073709551615 : Nat) = ⟨0x43f0000000000000⟩ := by
    decide +kernel
  have hfinite : (⟨0x43f0000000000000⟩ : Binary64).isFinite = true := by decide +kernel
  have hback : (Value.ofJson (.int 18446744073709551615)).toJson =
      .number (.real ⟨0x43f0000000000000⟩) := by
    have hvalue : Value.ofJson (.int 18446744073709551615) = .float ⟨0x43f0000000000000⟩ :=
      hdouble ▸ ofJson_wide (i := 18446744073709551615) (by decide)
    rw [hvalue, Value.toJson, if_pos hfinite]
  refine ⟨?_, hback, by decide +kernel, ?_⟩
  · rw [Json.parse?, ← htext, hread]
    rfl
  · rw [hback]
    intro h
    cases h

end CallCheck.Expr

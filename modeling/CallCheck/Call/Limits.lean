/-!
# Limits of a stream

How fast messages are sent, for how long, and how many.
-/

namespace CallCheck.Call

/-- What bounds the streaming side of a call. -/
structure Limits where
  /-- The pause between messages sent, in milliseconds. -/
  interval : Option Nat := none
  /-- How long the call may take before it is ended, in milliseconds. -/
  duration : Option Nat := none
  /-- How many messages are enough. -/
  messages : Option Nat := none
  deriving DecidableEq, Repr

/-- Whether a number of messages is enough. A limit of zero is none. -/
def Limits.reached (l : Limits) (count : Nat) : Bool :=
  l.messages.any fun max ↦ decide (0 < max) && decide (max ≤ count)

theorem Limits.reached_iff (l : Limits) (count : Nat) :
    l.reached count = true ↔ ∃ max, l.messages = some max ∧ 0 < max ∧ max ≤ count := by
  unfold reached
  cases l.messages <;> simp

theorem Limits.reached_eq_decide {l : Limits} {max : Nat} (hmax : l.messages = some max)
    (hpos : 0 < max) (count : Nat) : l.reached count = decide (max ≤ count) := by
  rw [reached, hmax, Option.any_some, decide_eq_true hpos, Bool.true_and]

/-- How many of a number of messages are taken before there are enough. -/
def Limits.enough (l : Limits) (count : Nat) : Nat :=
  match l.messages with
  | some max => if 0 < max then min max count else count
  | none => count

theorem Limits.enough_le (l : Limits) (count : Nat) : l.enough count ≤ count := by
  unfold enough
  cases l.messages with
  | none => exact Nat.le_refl count
  | some max => dsimp only; split <;> omega

theorem Limits.reached_zero (l : Limits) : l.reached 0 = false := by
  cases h : l.reached 0 with
  | false => rfl
  | true =>
    obtain ⟨max, -, hpos, hle⟩ := (l.reached_iff 0).1 h
    omega

theorem Limits.reached_of_le {l : Limits} {count more : Nat} (h : l.reached count = true)
    (hle : count ≤ more) : l.reached more = true := by
  obtain ⟨max, hmax, hpos, hmax_le⟩ := (l.reached_iff count).1 h
  exact (l.reached_iff more).2 ⟨max, hmax, hpos, Nat.le_trans hmax_le hle⟩

theorem Limits.enough_le_of_reached {l : Limits} {count : Nat} (h : l.reached count = true)
    (total : Nat) : l.enough total ≤ count := by
  obtain ⟨max, hmax, hpos, hle⟩ := (l.reached_iff count).1 h
  rw [enough, hmax]
  dsimp only
  rw [if_pos hpos]
  omega

theorem Limits.enough_of_not_reached {l : Limits} {count : Nat} (h : l.reached count = false) :
    l.enough count = count := by
  unfold enough
  cases hmax : l.messages with
  | none => rfl
  | some max =>
    dsimp only
    split
    · rename_i hpos
      rw [l.reached_eq_decide hmax hpos, decide_eq_false_iff_not] at h
      omega
    · rfl

theorem Limits.lt_enough {l : Limits} {count total : Nat} (h : l.reached count = false)
    (hlt : count < total) : count < l.enough total := by
  have hnot : ∀ max, l.messages = some max → 0 < max → ¬ max ≤ count := by
    intro max hmax hpos hle
    have hreached := (l.reached_iff count).2 ⟨max, hmax, hpos, hle⟩
    rw [h] at hreached
    cases hreached
  unfold enough
  cases hmax : l.messages with
  | none => exact hlt
  | some max =>
    dsimp only
    split
    · rename_i hpos
      have hgt := hnot max hmax hpos
      omega
    · exact hlt

end CallCheck.Call

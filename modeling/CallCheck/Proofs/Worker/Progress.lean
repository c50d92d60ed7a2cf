import CallCheck.Worker.Step

/-!
# Progress under fair schedules

A schedule that goes on for ever is fair if it comes back to everyone who can go on without being
told to, however late it is. Under such a schedule a system reaches an end as soon as two things
hold of it: as long as it has not ended some step helps, and no other step takes the help away
without coming closer to the end itself.

## Main statement

`exists_over_of_fair` makes this precise. How close a system is to its end is a number that bounds
it, not a function of its state: what a server still does may be hidden in the state of the server.
-/

namespace CallCheck.Worker

variable {S : Type}

/-- The state after so many steps of a schedule that goes on for ever. -/
def runFor (step : Step → S → Option S) (schedule : Nat → Step) (start : S) (n : Nat) : S :=
  runSchedule step ((List.range n).map schedule) start

/-- The schedule comes back to every step but the two that come from outside. -/
def Fair (schedule : Nat → Step) : Prop :=
  ∀ e, e ≠ .stop → e ≠ .expire → ∀ n, ∃ m, n ≤ m ∧ schedule m = e

/-- Two systems that are related at the start of a schedule are related after it, if no step but a
stop takes them apart. -/
theorem runSchedule_related {T : Type} {step : Step → S → Option S} {step' : Step → T → Option T}
    {P : S → T → Prop}
    (keeps : ∀ e s t, e ≠ .stop → P s t → P ((step e s).getD s) ((step' e t).getD t))
    {schedule : List Step} (hstop : .stop ∉ schedule) {s : S} {t : T} (h : P s t) :
    P (runSchedule step schedule s) (runSchedule step' schedule t) := by
  induction schedule generalizing s t with
  | nil => exact h
  | cons e rest ih =>
    rw [runSchedule_cons, runSchedule_cons]
    have he : e ≠ .stop := fun heq ↦ hstop (heq ▸ List.mem_cons_self)
    exact ih (fun hmem ↦ hstop (List.mem_cons_of_mem e hmem)) (keeps e s t he h)

/-- A system that cannot but come to an end: bounds that get lower, and steps that help. -/
structure Progress (step : Step → S → Option S) (Over : S → Prop) where
  /-- A number bounds what is still to be done. -/
  Bound : Nat → S → Prop
  /-- A step helps. -/
  Helps : Step → S → Prop
  /-- Some step helps until the end. -/
  exists_helps : ∀ {k s}, Bound k s → ¬ Over s → ∃ e, e ≠ .stop ∧ e ≠ .expire ∧ Helps e s
  /-- A step that helps can be made. -/
  isSome_of_helps : ∀ {e s}, Helps e s → (step e s).isSome
  /-- Every step lowers the bound, or else keeps it and the help of any other step. -/
  step_cases : ∀ {k s e s'}, Bound k s → step e s = some s' →
    (∃ k' < k, Bound k' s') ∨ (Bound k s' ∧ ∀ e', Helps e' s → e' ≠ e ∧ Helps e' s')

variable {step : Step → S → Option S} {schedule : Nat → Step} {start : S}

theorem runFor_succ (n : Nat) :
    runFor step schedule start (n + 1) =
      (step (schedule n) (runFor step schedule start n)).getD (runFor step schedule start n) := by
  rw [runFor, List.range_succ, List.map_append, runSchedule_append]
  rfl

theorem runFor_of_le {P : S → Prop} (keeps : ∀ e s s', step e s = some s' → P s → P s') {n m : Nat}
    (hle : n ≤ m) (h : P (runFor step schedule start n)) : P (runFor step schedule start m) := by
  induction hle with
  | refl => exact h
  | @step m _ ih =>
    rw [runFor_succ]
    cases hs : step (schedule m) (runFor step schedule start m) with
    | none => exact ih
    | some s' => exact keeps _ _ _ hs ih

namespace Progress

variable {Over : S → Prop} (p : Progress step Over)

/-- A step that helps is waited for, unless the bound is lowered before. -/
theorem exists_lower_of_helps {k n : Nat} {e : Step}
    (hbound : p.Bound k (runFor step schedule start n))
    (hhelps : p.Helps e (runFor step schedule start n)) (wait : Nat)
    (hwait : schedule (n + wait) = e) :
    ∃ m, n ≤ m ∧ ∃ k' < k, p.Bound k' (runFor step schedule start m) := by
  induction wait generalizing n with
  | zero =>
    obtain ⟨s', hs'⟩ := Option.isSome_iff_exists.1 (p.isSome_of_helps hhelps)
    rw [Nat.add_zero] at hwait
    rcases p.step_cases hbound hs' with hlower | ⟨-, hkeeps⟩
    · refine ⟨n + 1, Nat.le_succ n, ?_⟩
      rwa [runFor_succ, hwait, hs']
    · exact absurd rfl (hkeeps e hhelps).1
  | succ wait ih =>
    rw [Nat.add_succ, ← Nat.succ_add] at hwait
    -- Until it is its turn, the others lower the bound or leave it where it is.
    have hnext : (∃ k' < k, p.Bound k' (runFor step schedule start (n + 1))) ∨
        (p.Bound k (runFor step schedule start (n + 1)) ∧
          p.Helps e (runFor step schedule start (n + 1))) := by
      rw [runFor_succ]
      cases hs' : step (schedule n) (runFor step schedule start n) with
      | none => exact .inr ⟨hbound, hhelps⟩
      | some s' => exact (p.step_cases hbound hs').imp_right fun h ↦ ⟨h.1, (h.2 e hhelps).2⟩
    rcases hnext with hlower | ⟨hbound', hhelps'⟩
    · exact ⟨n + 1, Nat.le_succ n, hlower⟩
    · obtain ⟨m, hm, hlower⟩ := ih hbound' hhelps' hwait
      exact ⟨m, Nat.le_of_succ_le hm, hlower⟩

/-- **Progress.** Under a fair schedule a system whose steps help each other comes to its end. -/
theorem exists_over_of_fair (hfair : Fair schedule) {k n : Nat}
    (hbound : p.Bound k (runFor step schedule start n)) :
    ∃ m, n ≤ m ∧ Over (runFor step schedule start m) := by
  induction k using Nat.strongRecOn generalizing n with
  | _ k ih =>
    rcases Classical.em (Over (runFor step schedule start n)) with hover | hover
    · exact ⟨n, Nat.le_refl n, hover⟩
    · obtain ⟨e, hstop, hexpire, hhelps⟩ := p.exists_helps hbound hover
      obtain ⟨m, hm, hturn⟩ := hfair e hstop hexpire n
      obtain ⟨wait, rfl⟩ := Nat.exists_eq_add_of_le hm
      obtain ⟨m, hm, k', hk', hbound'⟩ := p.exists_lower_of_helps hbound hhelps wait hturn
      obtain ⟨m', hm', hover'⟩ := ih k' hk' hbound'
      exact ⟨m', Nat.le_trans hm hm', hover'⟩

end Progress

end CallCheck.Worker

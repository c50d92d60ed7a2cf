import CallCheck.Probe.Program
import CallCheck.Proofs.Probe.Interrupt

/-!
# What a run reports, and how the program ends

A run reports its entries in order, and each one once. It stops early only behind an entry that was
cancelled, so that nothing is left out silently: the program ends with zero just when every entry of
the collection has been reported as completed.

## Main statement

`runAll_bookkeeping`, for every list of entries and whatever the entries meet outside. It rests on
the relation `Booked` between entries and what is reported of them, which a run comes to entry by
entry (`booked_runFrom`).
-/

namespace CallCheck.Probe

open Worker (State)

variable {s : Settings} {files : Files} {o : Surroundings} {h : Harness} {e : Entry}

/-! ## What is reported of one entry -/

/-- An entry did not fail, and its call ended in a state. -/
def EntryOutcome.EndedIn (outcome : EntryOutcome) (state : State) : Prop :=
  ∃ r, outcome.result = .ok r ∧ r.state = state

theorem isCancelled_iff {outcome : EntryOutcome} :
    outcome.isCancelled = true ↔ outcome.EndedIn .cancelled := by
  obtain ⟨name, result⟩ := outcome
  cases result with
  | error f => simp [EntryOutcome.isCancelled, EntryOutcome.EndedIn]
  | ok r =>
    obtain ⟨state, sent, received, response, took⟩ := r
    cases state <;> simp [EntryOutcome.isCancelled, EntryOutcome.EndedIn]

theorem passed_iff {outcome : EntryOutcome} :
    outcome.passed = true ↔
      (∃ r, outcome.result = .ok r) ∧ ¬ outcome.EndedIn .cancelled := by
  obtain ⟨name, result⟩ := outcome
  cases result <;> simp [EntryOutcome.passed, EntryOutcome.EndedIn]

theorem runEntry_state {r : EntryReport} {h' : Harness}
    (hrun : runEntry s files o h e = (.ok r, h')) :
    r.state = .cancelled ∨ r.state = .completed := by
  by_cases hinterrupted : o.interrupted = true
  · rw [runEntry_interrupted hinterrupted o.network] at hrun
    obtain ⟨hresult, -⟩ := Prod.mk.inj hrun
    obtain rfl := Except.ok.inj hresult
    exact .inl rfl
  · obtain ⟨session, report, elapsed, hcalled, hstate⟩ :=
      exists_called_of_cancelled (Bool.eq_false_iff.2 hinterrupted) hrun
    obtain ⟨request, hreport⟩ := callEntry_state hcalled.call
    rw [hstate, hreport]
    split
    · exact .inl rfl
    · exact .inr rfl

/-! ## What is reported of all entries -/

/-- What is reported of entries: one outcome for each under its name, up to one that is
cancelled. -/
inductive Booked : List Entry → List EntryOutcome → Prop
  | nil : Booked [] []
  | cancelled {e : Entry} {rest : List Entry} {outcome : EntryOutcome} :
      outcome.name = e.name → outcome.EndedIn .cancelled → Booked (e :: rest) [outcome]
  | cons {e : Entry} {rest : List Entry} {outcome : EntryOutcome} {outcomes : List EntryOutcome} :
      outcome.name = e.name → ¬ outcome.EndedIn .cancelled →
      (∀ r, outcome.result = .ok r → r.state = .completed) → Booked rest outcomes →
      Booked (e :: rest) (outcome :: outcomes)

/-- **Run lemma.** Whatever the entries meet, this is what comes of them. -/
theorem booked_runFrom (s : Settings) (files : Files) (outside : Nat → Surroundings) (place : Nat)
    (h : Harness) (entries : List Entry) :
    Booked entries (runFrom s files outside place h entries).1 := by
  induction entries generalizing place h with
  | nil => exact .nil
  | cons e rest ih =>
    rw [runFrom_cons]
    cases hrun : runEntry s files (outside place) h e with
    | mk result h' =>
      by_cases hcancelled : (EntryOutcome.mk e.name result).isCancelled = true
      · rw [if_pos hcancelled]
        exact .cancelled rfl (isCancelled_iff.1 hcancelled)
      · rw [if_neg hcancelled]
        refine .cons rfl (mt isCancelled_iff.2 hcancelled) ?_ (ih (place + 1) h')
        rintro r rfl
        refine (runEntry_state hrun).resolve_left fun hstate ↦ ?_
        exact hcancelled (isCancelled_iff.2 ⟨r, rfl, hstate⟩)

namespace Booked

variable {entries : List Entry} {outcomes : List EntryOutcome}

theorem length_le (h : Booked entries outcomes) : outcomes.length ≤ entries.length := by
  induction h with
  | nil => exact Nat.le_refl 0
  | cancelled => simp
  | cons _ _ _ _ ih => simpa using ih

theorem names (h : Booked entries outcomes) :
    outcomes.map EntryOutcome.name = (entries.take outcomes.length).map Entry.name := by
  induction h with
  | nil => rfl
  | cancelled hname => simp [hname]
  | cons hname _ _ _ ih => simp [hname, ih]

theorem not_cancelled (h : Booked entries outcomes) :
    ∀ outcome ∈ outcomes.dropLast, ¬ outcome.EndedIn .cancelled := by
  induction h with
  | nil => simp
  | cancelled => simp
  | @cons e rest outcome outcomes _ hnot _ _ ih =>
    cases outcomes with
    | nil => simp
    | cons next outcomes =>
      rw [List.dropLast_cons_cons]
      intro other hmem
      rcases List.mem_cons.1 hmem with rfl | hmem
      · exact hnot
      · exact ih other hmem

/-- Entries are left out only behind one that is cancelled. -/
theorem exists_cancelled (h : Booked entries outcomes) (hlt : outcomes.length < entries.length) :
    ∃ outcome, outcomes.getLast? = some outcome ∧ outcome.EndedIn .cancelled := by
  induction h with
  | nil => exact absurd hlt (Nat.lt_irrefl 0)
  | cancelled _ hcancelled => exact ⟨_, rfl, hcancelled⟩
  | cons _ _ _ _ ih =>
    obtain ⟨last, hlast, hcancelled⟩ := ih (Nat.lt_of_succ_lt_succ hlt)
    exact ⟨last, by simp [List.getLast?_cons, hlast], hcancelled⟩

theorem endedIn (h : Booked entries outcomes) {outcome : EntryOutcome} (hmem : outcome ∈ outcomes)
    {r : EntryReport} (hr : outcome.result = .ok r) :
    r.state = .cancelled ∨ r.state = .completed := by
  induction h with
  | nil => cases hmem
  | cancelled _ hcancelled =>
    obtain rfl := List.mem_singleton.1 hmem
    obtain ⟨r', hr', hstate⟩ := hcancelled
    obtain rfl := Except.ok.inj (hr.symm.trans hr')
    exact .inl hstate
  | cons _ _ hcompleted _ ih =>
    rcases List.mem_cons.1 hmem with rfl | hmem
    · exact .inr (hcompleted r hr)
    · exact ih hmem

theorem passed_iff_completed (h : Booked entries outcomes) {outcome : EntryOutcome}
    (hmem : outcome ∈ outcomes) : outcome.passed = true ↔ outcome.EndedIn .completed := by
  rw [passed_iff]
  constructor
  · rintro ⟨⟨r, hr⟩, hnot⟩
    exact ⟨r, hr, (h.endedIn hmem hr).resolve_left fun hstate ↦ hnot ⟨r, hr, hstate⟩⟩
  · rintro ⟨r, hr, hstate⟩
    refine ⟨⟨r, hr⟩, ?_⟩
    rintro ⟨r', hr', hstate'⟩
    obtain rfl := Except.ok.inj (hr.symm.trans hr')
    rw [hstate] at hstate'
    cases hstate'

end Booked

/-! ## How the program ends -/

theorem conclude_code_eq_zero_iff (entries : List Entry) (outcomes : List EntryOutcome) :
    (conclude entries outcomes).code = 0 ↔
      entries.length ≤ outcomes.length ∧ ∀ outcome ∈ outcomes, outcome.passed = true := by
  have hfailures : failures outcomes = 0 ↔ ∀ outcome ∈ outcomes, outcome.passed = true := by
    simp [failures, List.countP_eq_zero]
  have hcode : (conclude entries outcomes).code = 0 ↔
      failures outcomes = 0 ∧ entries.length - outcomes.length = 0 := by
    rw [conclude]
    split <;> simp_all
  rw [hcode, hfailures, Nat.sub_eq_zero_iff_le, and_comm]

theorem Booked.code_eq_zero_iff {entries : List Entry} {outcomes : List EntryOutcome}
    (h : Booked entries outcomes) :
    (conclude entries outcomes).code = 0 ↔
      outcomes.length = entries.length ∧
        ∀ outcome ∈ outcomes, outcome.EndedIn .completed := by
  have hpassed : (∀ outcome ∈ outcomes, outcome.passed = true) ↔
      ∀ outcome ∈ outcomes, outcome.EndedIn .completed :=
    forall₂_congr fun outcome hmem ↦ h.passed_iff_completed hmem
  rw [conclude_code_eq_zero_iff, hpassed]
  refine and_congr_left fun _ ↦ ⟨fun hle ↦ ?_, fun heq ↦ ?_⟩
  · exact Nat.le_antisymm h.length_le hle
  · exact Nat.le_of_eq heq.symm

/-- **What a run reports, and how the program ends.** The entries are reported in order, up to a
cancelled one if there is one; entries are left out only behind it. The program, once its options
and entries can be read, ends with zero just when every entry has been reported as completed. -/
theorem runAll_bookkeeping (s : Settings) (files : Files) (outside : Nat → Surroundings)
    (entries : List Entry) :
    let outcomes := (runAll s files outside entries).1
    outcomes.length ≤ entries.length ∧
      outcomes.map EntryOutcome.name = (entries.take outcomes.length).map Entry.name ∧
      (∀ outcome ∈ outcomes.dropLast, ¬ outcome.EndedIn .cancelled) ∧
      (outcomes.length < entries.length →
        ∃ outcome, outcomes.getLast? = some outcome ∧ outcome.EndedIn .cancelled) ∧
      ∀ (i : Invocation) (options : Options), i.files = files →
        Options.parse i.arguments (i.environment.lookup ·) = .ok options →
        Settings.ofOptions files options = .ok s → s.entries files = .ok entries →
        ((i.run outside).code = 0 ↔
          outcomes.length = entries.length ∧
            ∀ outcome ∈ outcomes, outcome.EndedIn .completed) := by
  intro outcomes
  have hbooked : Booked entries outcomes := booked_runFrom s files outside 0 {} entries
  refine ⟨hbooked.length_le, hbooked.names, hbooked.not_cancelled, hbooked.exists_cancelled, ?_⟩
  rintro i options rfl hoptions hsettings hentries
  rw [Invocation.run, hoptions]
  simp only [hsettings]
  rw [runSettings, hentries]
  exact hbooked.code_eq_zero_iff

/-- A collection of three entries. -/
def threeCalls : Invocation where
  arguments := ["--collection", "calls.json"]
  files :=
    let entry (name : String) : Json := .object [("name", .string name), ("call", .string "a.A/A")]
    ⟨[("calls.json", Text.Utf8.encode (Json.array [entry "a", entry "b", entry "c"]).text)]⟩

/-- Nothing can be reached, and the interrupt comes after the first entry. -/
def unreachable (n : Nat) : Surroundings where
  interrupted := decide (0 < n)
  network := .down
  clock _ := .at 0 ""

/-- The first of three entries fails, the second is cancelled, and the third is left out. -/
theorem runAll_bookkeeping_threeCalls :
    ∃ options settings entries,
      Options.parse threeCalls.arguments (threeCalls.environment.lookup ·) = .ok options ∧
        Settings.ofOptions threeCalls.files options = .ok settings ∧
        settings.entries threeCalls.files = .ok entries ∧ entries.length = 3 ∧
        (runAll settings threeCalls.files unreachable entries).1.map
          (fun outcome ↦ (outcome.name, outcome.isCancelled)) = [("a", false), ("b", true)] ∧
        ¬ (threeCalls.run unreachable).code = 0 := by
  have hrun : ((Options.parse threeCalls.arguments (threeCalls.environment.lookup ·)).toOption.bind
      fun options ↦ (Settings.ofOptions threeCalls.files options).toOption.bind fun settings ↦
        (settings.entries threeCalls.files).toOption.map fun entries ↦
          (entries.length, (runAll settings threeCalls.files unreachable entries).1.map
            fun outcome ↦ (outcome.name, outcome.isCancelled))) =
      some (3, [("a", false), ("b", true)]) := by
    decide +kernel
  obtain ⟨options, hoptions, hrun⟩ := Option.bind_eq_some_iff.1 hrun
  obtain ⟨settings, hsettings, hrun⟩ := Option.bind_eq_some_iff.1 hrun
  obtain ⟨entries, hentries, hrun⟩ := Option.map_eq_some_iff.1 hrun
  obtain ⟨hlength, hreported⟩ := Prod.mk.inj hrun
  have hoptions := toOption_eq_some_iff.1 hoptions
  have hsettings := toOption_eq_some_iff.1 hsettings
  have hentries := toOption_eq_some_iff.1 hentries
  obtain ⟨-, -, -, -, hcode⟩ := runAll_bookkeeping settings threeCalls.files unreachable entries
  refine ⟨options, settings, entries, hoptions, hsettings, hentries, hlength, hreported, ?_⟩
  rw [hcode threeCalls options rfl hoptions hsettings hentries]
  rintro ⟨hall, -⟩
  have htwo := congrArg List.length hreported
  rw [List.length_map, hall, hlength] at htwo
  cases htwo

end CallCheck.Probe

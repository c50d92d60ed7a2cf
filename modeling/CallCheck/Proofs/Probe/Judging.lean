import CallCheck.Proofs.Expr.Effects
import CallCheck.Proofs.Probe.Isolation

/-!
# How expectations and events are judged

Sources are evaluated in order, each on what the one before it has left, and what is wrong with one
of them ends it. Expectations and events differ only in what is wrong: an expectation must not be
false, an event may have any value.

## What is evaluated

A source that is left out leaves no trace in the harness, but that is not to say that it is not
evaluated. `judgeByM` judges with evaluations as an effect, so that they can be counted: without
effects it is `check` or `apply`, and with a log of what is evaluated it says which sources were,
and what each of them has seen.

## Main statement

`judged_in_order`, for every harness and all lists of expectations and of events, and for the
entries that have them. What has been judged is a `Verdict`, which the lists and the evaluations
determine; what has been written are the writes of the evaluations that took place.
-/

namespace CallCheck.Probe

open CallCheck.Expr (Tree Value Write)

variable {wrong : String → Except Expr.Error Value → Option Failure} {h h' : Harness}
  {source : String} {sources before after seen : List String} {f : Failure}

/-! ## What is wrong -/

/-- What is wrong with what an expectation comes to. -/
def unmet (source : String) : Except Expr.Error Value → Option Failure
  | .error e => some ⟨[s!"expectation `{source}` could not be evaluated"], .expr e⟩
  | .ok value =>
    if value.asBool? = some false then
      some (.note s!"expectation `{source}` does not hold")
    else none

/-- What is wrong with what an event comes to. -/
def failed (source : String) : Except Expr.Error Value → Option Failure
  | .error e => some ⟨[s!"event `{source}` failed"], .expr e⟩
  | .ok _ => none

theorem unmet_eq_none_iff {result : Except Expr.Error Value} :
    unmet source result = none ↔ ∃ value, result = .ok value ∧ value ≠ .bool false := by
  rcases result with e | value
  · simp [unmet]
  · have hfalse : value.asBool? = some false ↔ value = .bool false := by
      rcases value with _ | b | _ <;> simp [Value.asBool?]
    simp [unmet, hfalse]

theorem failed_eq_none_iff {result : Except Expr.Error Value} :
    failed source result = none ↔ ∃ value, result = .ok value := by
  rcases result with e | value <;> simp [failed]

namespace Harness

/-! ## Evaluations one after the other -/

/-- What evaluations of sources leave, one after the other, whatever they come to. -/
def afterAll (h : Harness) (sources : List String) : Harness :=
  sources.foldl (fun h source ↦ (h.evaluate source).2) h

/-- What a source comes to behind others. -/
def comesTo (h : Harness) (before : List String) (source : String) : Except Expr.Error Value :=
  ((h.afterAll before).evaluate source).1

/-- Nothing is wrong with any of some sources, each of them behind those before it. -/
def Fine (wrong : String → Except Expr.Error Value → Option Failure) (h : Harness)
    (sources : List String) : Prop :=
  ∀ before source after, sources = before ++ source :: after →
    wrong source (h.comesTo before source) = none

/-- Sources are evaluated up to the first with which something is wrong, and that is what is
reported. -/
inductive Verdict (wrong : String → Except Expr.Error Value → Option Failure) (h : Harness) :
    List String → List String → Except Failure Unit → Prop
  /-- Nothing is wrong, and all are evaluated. -/
  | passed {sources : List String} : Fine wrong h sources → Verdict wrong h sources sources (.ok ())
  /-- Something is wrong with one, and none behind it is evaluated. -/
  | stopped {before after : List String} {source : String} {f : Failure} : Fine wrong h before →
      wrong source (h.comesTo before source) = some f →
      Verdict wrong h (before ++ source :: after) (before ++ [source]) (.error f)

theorem fine_nil : Fine wrong h [] := by
  intro before source after hsplit
  simp at hsplit

theorem Fine.cons (hsource : wrong source (h.evaluate source).1 = none)
    (hrest : Fine wrong (h.evaluate source).2 sources) : Fine wrong h (source :: sources) := by
  intro before other after hsplit
  rcases List.cons_eq_append_iff.1 hsplit with ⟨rfl, heq⟩ | ⟨before', rfl, heq⟩
  · obtain ⟨rfl, -⟩ := List.cons.inj heq
    exact hsource
  · exact hrest before' other after heq

theorem Verdict.cons {r : Except Failure Unit} (hsource : wrong source (h.evaluate source).1 = none)
    (hrest : Verdict wrong (h.evaluate source).2 sources seen r) :
    Verdict wrong h (source :: sources) (source :: seen) r := by
  rcases hrest with hfine | @⟨before, after, other, f, hfine, hwrong⟩
  · exact .passed (hfine.cons hsource)
  · have hstopped : Verdict wrong h ((source :: before) ++ other :: after)
        ((source :: before) ++ [other]) (.error f) := .stopped (hfine.cons hsource) hwrong
    exact hstopped

theorem Verdict.first (hwrong : wrong source (h.evaluate source).1 = some f)
    (rest : List String) : Verdict wrong h (source :: rest) [source] (.error f) := by
  have hstopped : Verdict wrong h ([] ++ source :: rest) ([] ++ [source]) (.error f) :=
    .stopped fine_nil hwrong
  exact hstopped

theorem Verdict.eq_ok_iff {r : Except Failure Unit} (hverdict : Verdict wrong h sources seen r) :
    r = .ok () ↔ Fine wrong h sources := by
  constructor
  · rintro rfl
    cases hverdict with
    | passed hfine => exact hfine
  · intro hall
    rcases hverdict with _ | ⟨-, hwrong⟩
    · rfl
    · rw [hall _ _ _ rfl] at hwrong
      cases hwrong

theorem Verdict.seen_eq (hverdict : Verdict wrong h sources seen (.ok ())) :
    seen = sources := by
  cases hverdict
  rfl

/-! ## Evaluating as an effect -/

section Effects

variable {m : Type → Type} [Monad m]

/-- Judges sources in order, where evaluating is an effect. -/
def judgeByM (wrong : String → Except Expr.Error Value → Option Failure)
    (evaluate : Harness → String → m (Except Expr.Error Value × Harness)) (h : Harness) :
    List String → m (Except Failure Unit × Harness)
  | [] => pure (.ok (), h)
  | source :: rest => do
    let (result, h) ← evaluate h source
    match wrong source result with
    | some f => pure (.error f, h)
    | none => judgeByM wrong evaluate h rest

/-- Judges an entry, where evaluating is an effect: its expectations, and then its events if nothing
is wrong with them. -/
def judgeM (evaluate : Harness → String → m (Except Expr.Error Value × Harness)) (h : Harness)
    (e : Entry) : m (Except Failure Unit × Harness) := do
  let (result, h) ← judgeByM unmet evaluate h e.expect
  match result with
  | .error f => pure (.error f, h)
  | .ok () => judgeByM failed evaluate h e.event

end Effects

/-- Evaluating a source and taking note of it. -/
def recording (h : Harness) (source : String) :
    StateM (List Evaluation) (Except Expr.Error Value × Harness) := do
  modify (· ++ [⟨source, h⟩])
  return h.evaluate source

/-- How sources are judged, one by one. -/
structure Judges (wrong : String → Except Expr.Error Value → Option Failure)
    (run : Harness → List String → Except Failure Unit × Harness) : Prop where
  nil (h : Harness) : run h [] = (.ok (), h)
  stop {h : Harness} {source : String} {rest : List String} {f : Failure} :
    wrong source (h.evaluate source).1 = some f →
      run h (source :: rest) = (.error f, (h.evaluate source).2)
  next {h : Harness} {source : String} {rest : List String} :
    wrong source (h.evaluate source).1 = none →
      run h (source :: rest) = run (h.evaluate source).2 rest

theorem judges_check : Judges unmet check := by
  refine ⟨fun h ↦ rfl, ?_, ?_⟩
  · intro h source rest f hwrong
    rw [check]
    rcases hevaluate : h.evaluate source with ⟨e | value, h'⟩
    · rw [hevaluate] at hwrong
      obtain rfl := Option.some.inj hwrong
      rfl
    · rw [hevaluate, unmet] at hwrong
      by_cases hfalse : value.asBool? = some false
      · rw [if_pos hfalse] at hwrong
        obtain rfl := Option.some.inj hwrong
        exact if_pos hfalse
      · rw [if_neg hfalse] at hwrong
        cases hwrong
  · intro h source rest hnone
    rw [check]
    rcases hevaluate : h.evaluate source with ⟨e | value, h'⟩
    · rw [hevaluate] at hnone
      cases hnone
    · rw [hevaluate, unmet] at hnone
      by_cases hfalse : value.asBool? = some false
      · rw [if_pos hfalse] at hnone
        cases hnone
      · exact if_neg hfalse

theorem judges_apply : Judges failed apply := by
  refine ⟨fun h ↦ rfl, ?_, ?_⟩
  · intro h source rest f hwrong
    rw [apply]
    rcases hevaluate : h.evaluate source with ⟨e | value, h'⟩
    · rw [hevaluate] at hwrong
      obtain rfl := Option.some.inj hwrong
      rfl
    · rw [hevaluate] at hwrong
      cases hwrong
  · intro h source rest hnone
    rw [apply]
    rcases hevaluate : h.evaluate source with ⟨e | value, h'⟩
    · rw [hevaluate] at hnone
      cases hnone
    · rfl

namespace Judges

variable {run : Harness → List String → Except Failure Unit × Harness}

/-- Without effects it is the same judging. -/
theorem run_id (hrun : Judges wrong run) (h : Harness) (sources : List String) :
    (judgeByM (m := Id) wrong (fun h source ↦ pure (h.evaluate source)) h sources).run =
      run h sources := by
  induction sources generalizing h with
  | nil => exact (hrun.nil h).symm
  | cons source rest ih =>
    cases hwrong : wrong source (h.evaluate source).1 with
    | none =>
      rw [hrun.next hwrong, ← ih]
      simp [judgeByM, hwrong]
    | some f =>
      rw [hrun.stop hwrong]
      simp [judgeByM, hwrong]

/-- **Run lemma.** What is evaluated, and what comes of it. -/
theorem exists_evaluations (hrun : Judges wrong run) (h : Harness) (sources : List String)
    (log : List Evaluation) :
    ∃ es, ((judgeByM wrong recording h sources).run log).run = (run h sources, log ++ es) ∧
      Verdict wrong h sources (es.map Evaluation.source) (run h sources).1 ∧
      Leads h es (run h sources).2 := by
  induction sources generalizing h log with
  | nil =>
    refine ⟨[], ?_, ?_, ?_⟩
    · simp [judgeByM, hrun.nil]
    · rw [hrun.nil]
      exact .passed fine_nil
    · rw [hrun.nil]
      exact .nil
  | cons source rest ih =>
    cases hwrong : wrong source (h.evaluate source).1 with
    | none =>
      obtain ⟨es, hlog, hverdict, hleads⟩ :=
        ih (h.evaluate source).2 (log ++ [⟨source, h⟩])
      refine ⟨⟨source, h⟩ :: es, ?_, ?_, ?_⟩
      · rw [hrun.next hwrong]
        simpa [judgeByM, recording, hwrong] using hlog
      · rw [hrun.next hwrong]
        exact hverdict.cons hwrong
      · rw [hrun.next hwrong]
        exact .cons hleads
    | some f =>
      refine ⟨[⟨source, h⟩], ?_, ?_, ?_⟩
      · rw [hrun.stop hwrong]
        simp [judgeByM, recording, hwrong]
      · rw [hrun.stop hwrong]
        exact .first hwrong rest
      · rw [hrun.stop hwrong]
        exact .cons .nil

end Judges

end Harness

/-! ## What evaluations write -/

namespace Evaluation

/-- What an evaluation writes, nothing if its source spells no expression. -/
def writes (ev : Evaluation) : List Write :=
  match Expr.parse ev.source with
  | .error _ => []
  | .ok t => t.writes ev.harness.toContext

/-- An evaluation changes what is seen by its writes and by nothing else. -/
structure ByWrites (ev : Evaluation) : Prop where
  /-- The values are stored, one after the other, and the call that is seen stays. -/
  left : (ev.harness.evaluate ev.source).2.toContext =
    Write.applyAll ev.writes ev.harness.toContext
  /-- Each value is that of an assignment, done where the writes before it had led. -/
  stored : Write.AreStored ev.harness.toContext ev.writes
  /-- The assignments are the first of those that stand in the expression. -/
  inOrder : ∀ t, Expr.parse ev.source = .ok t → ev.writes.map Write.node <+: t.assignments
  /-- With a value, they are all of them. -/
  complete : ∀ t, Expr.parse ev.source = .ok t →
    (∃ value, (ev.harness.evaluate ev.source).1 = .ok value) →
      ev.writes.map Write.node = t.assignments
  /-- With an error, they are those that were done when the first error came up. -/
  failing : ∀ t, Expr.parse ev.source = .ok t → ∀ earlier part c later e,
    t.visits ev.harness.toContext = earlier ++ (part, c) :: later → (part.eval c).1 = .error e →
      (ev.harness.evaluate ev.source).1 = .error e ∧ ev.writes = earlier.filterMap Write.of?

theorem writes_of_evaluation (ev : Evaluation) : ev.ByWrites := by
  obtain ⟨source, h⟩ := ev
  rcases hparse : Expr.parse source with e | t
  · have hevaluate : h.evaluate source = (.error e, h) := by
      rw [Harness.evaluate, Expr.Context.evaluate, hparse]
      rfl
    have hwrites : writes ⟨source, h⟩ = [] := by simp only [writes, hparse]
    refine ⟨?_, ?_, ?_, ?_, ?_⟩
    · rw [hwrites, hevaluate]
      rfl
    · rw [hwrites]
      trivial
    all_goals
      intro t ht
      rw [hparse] at ht
      cases ht
  · have hevaluate : h.evaluate source = (t.eval h.toContext).map id Harness.mk := by
      rw [Harness.evaluate, Expr.Context.evaluate, hparse]
    have hwrites : writes ⟨source, h⟩ = t.writes h.toContext := by simp only [writes, hparse]
    have heffects := t.effects h.toContext
    refine ⟨?_, ?_, ?_, ?_, ?_⟩
    · rw [hwrites, hevaluate]
      exact heffects.context_eq
    · rw [hwrites]
      exact heffects.stored
    all_goals
      intro t' ht'
      rw [hparse] at ht'
      obtain rfl := Except.ok.inj ht'
      rw [hwrites]
    · exact heffects.inOrder
    · rw [hevaluate]
      rintro ⟨value, hvalue⟩
      exact heffects.complete value hvalue
    · intro earlier part c later e hvisits he
      rw [hevaluate, Tree.writes, hvisits]
      rw [hvisits] at heffects
      exact heffects.writes_of_error he

end Evaluation

/-- Evaluations have taken place from one harness to another. -/
structure Evaluated (h : Harness) (es : List Evaluation) (h' : Harness) : Prop where
  /-- Each evaluation sees what the one before it has left. -/
  leads : Leads h es h'
  /-- What the evaluations have written is stored, and nothing else. -/
  left : h'.toContext = Write.applyAll (es.flatMap Evaluation.writes) h.toContext
  /-- The call that is seen stays. -/
  sides : h'.sides = h.sides

namespace Leads

variable {es : List Evaluation}

theorem evaluated (hes : Leads h es h') : Evaluated h es h' := by
  refine ⟨hes, ?_, hes.sides_eq.2⟩
  induction hes with
  | nil => rfl
  | @cons h _ source _ _ ih =>
    rw [List.flatMap_cons, Write.applyAll_append, ← (Evaluation.writes_of_evaluation _).left]
    exact ih

theorem eq_afterAll (hes : Leads h es h') : h' = h.afterAll (es.map Evaluation.source) := by
  induction hes with
  | nil => rfl
  | cons _ ih => exact ih

end Leads

namespace Harness

/-- Sources have been evaluated in order, and this is how it ended. -/
structure InOrder (wrong : String → Except Expr.Error Value → Option Failure) (h : Harness)
    (sources : List String) (run : Except Failure Unit × Harness) (es : List Evaluation) : Prop
    extends Evaluated h es run.2 where
  /-- The evaluations go up to the first source with which something is wrong. -/
  verdict : Verdict wrong h sources (es.map Evaluation.source) run.1

/-- Judging lists of sources, in each harness. -/
structure JudgesInOrder (wrong : String → Except Expr.Error Value → Option Failure)
    (run : Harness → List String → Except Failure Unit × Harness) : Prop where
  /-- Without effects, judging by evaluations as an effect is the same. -/
  run_id : ∀ h sources,
    (judgeByM (m := Id) wrong (fun h source ↦ pure (h.evaluate source)) h sources).run =
      run h sources
  /-- What is evaluated, and what comes of it. -/
  run_log : ∀ h sources, ∃ es, ((judgeByM wrong recording h sources).run []).run =
    (run h sources, es) ∧ InOrder wrong h sources (run h sources) es
  /-- Nothing is reported just if nothing is wrong with any source. -/
  eq_ok_iff : ∀ h sources, (run h sources).1 = .ok () ↔ Fine wrong h sources

/-- Judging an entry in a harness. -/
structure JudgedInOrder (h : Harness) (e : Entry) : Prop where
  /-- Without effects, judging by evaluations as an effect is the same. -/
  run_id : (judgeM (m := Id) (fun h source ↦ pure (h.evaluate source)) h e).run = h.judge e
  /-- No event is evaluated before all expectations are met. -/
  run_log : ∃ es es', ((judgeM recording h e).run []).run = (h.judge e, es ++ es') ∧
    Evaluated h (es ++ es') (h.judge e).2 ∧
    InOrder unmet h e.expect (h.check e.expect) es ∧
    ((∃ f, h.check e.expect = (.error f, (h.judge e).2) ∧ (h.judge e).1 = .error f ∧ es' = []) ∨
      (h.check e.expect).1 = .ok () ∧
        InOrder failed (h.check e.expect).2 e.event (h.judge e) es')
  /-- Nothing is reported just if nothing is wrong with any expectation or event. -/
  eq_ok_iff : (h.judge e).1 = .ok () ↔
    Fine unmet h e.expect ∧ Fine failed (h.afterAll e.expect) e.event

namespace Judges

variable {run : Harness → List String → Except Failure Unit × Harness}

theorem inOrder (hrun : Judges wrong run) (h : Harness) (sources : List String)
    (log : List Evaluation) :
    ∃ es, ((judgeByM wrong recording h sources).run log).run = (run h sources, log ++ es) ∧
      InOrder wrong h sources (run h sources) es := by
  obtain ⟨es, hlog, hverdict, hleads⟩ := hrun.exists_evaluations h sources log
  exact ⟨es, hlog, hleads.evaluated, hverdict⟩

theorem judgesInOrder (hrun : Judges wrong run) : JudgesInOrder wrong run := by
  refine ⟨hrun.run_id, fun h sources ↦ hrun.inOrder h sources [], fun h sources ↦ ?_⟩
  obtain ⟨es, -, hes⟩ := hrun.inOrder h sources []
  exact hes.verdict.eq_ok_iff

theorem snd_eq_afterAll (hrun : Judges wrong run) (hok : (run h sources).1 = .ok ()) :
    (run h sources).2 = h.afterAll sources := by
  obtain ⟨es, -, hes⟩ := hrun.inOrder h sources []
  have hverdict := hes.verdict
  rw [hok] at hverdict
  rw [hes.leads.eq_afterAll, hverdict.seen_eq]

end Judges

theorem judge_of_error {e : Entry} (hcheck : h.check e.expect = (.error f, h')) :
    h.judge e = (.error f, h') := by
  rw [judge, hcheck]

theorem judge_of_ok {e : Entry} (hcheck : h.check e.expect = (.ok (), h')) :
    h.judge e = h'.apply e.event := by
  rw [judge, hcheck]

theorem judgedInOrder (h : Harness) (e : Entry) : JudgedInOrder h e := by
  have hid := judges_check.run_id h e.expect
  have hok := judges_check.judgesInOrder.eq_ok_iff h e.expect
  obtain ⟨es, hlog, hes⟩ := judges_check.inOrder h e.expect []
  rcases hcheck : h.check e.expect with ⟨f | _, h'⟩
  · have hjudge := judge_of_error hcheck
    rw [hcheck] at hid hlog hok
    refine ⟨?_, ⟨es, [], ?_, ?_, hes, .inl ⟨f, ?_, ?_, rfl⟩⟩, ?_⟩
    · rw [hjudge]
      simp [judgeM, hid]
    · rw [hjudge]
      simp [judgeM, hlog]
    · rw [hjudge, List.append_nil]
      exact hcheck ▸ hes.toEvaluated
    · rw [hcheck, hjudge]
    · rw [hjudge]
    · rw [hjudge, ← hok]
      simp
  · have hjudge := judge_of_ok hcheck
    have hafter := judges_check.snd_eq_afterAll (congrArg Prod.fst hcheck)
    rw [hcheck] at hid hlog hok hafter
    obtain ⟨es', hlog', hes'⟩ := judges_apply.inOrder h' e.event es
    refine ⟨?_, ⟨es, es', ?_, ?_, hes, .inr ⟨?_, ?_⟩⟩, ?_⟩
    · rw [hjudge, ← judges_apply.run_id]
      simp [judgeM, hid]
    · rw [hjudge, ← hlog']
      simp [judgeM, hlog]
    · rw [hjudge]
      exact ((hcheck ▸ hes.leads).append hes'.leads).evaluated
    · rw [hcheck]
    · rw [hcheck, hjudge]
      exact hes'
    · rw [hjudge, judges_apply.judgesInOrder.eq_ok_iff, ← hok, ← hafter]
      simp

end Harness

/-! ## Entries -/

/-- What comes of an entry that has been called, by what its expressions see. -/
structure Concluded (h : Harness) (e : Entry) (run : Except Failure EntryReport × Harness) :
    Prop where
  /-- The entry fails with what is wrong. -/
  result : run.1.map (fun _ ↦ ()) = (h.judge e).1
  /-- The harness is the one that judging leaves. -/
  left : run.2 = (h.judge e).2
  /-- The entry succeeds just if nothing is wrong with any expectation or event. -/
  succeeds_iff : (∃ r, run.1 = .ok r) ↔
    Harness.Fine unmet h e.expect ∧ Harness.Fine failed (h.afterAll e.expect) e.event

theorem Recorded.concluded {serialize : Serializer} {s : Settings} {files : Files}
    {o : Surroundings} {e : Entry} {session : Session} {report : Worker.Report Message.Value}
    {elapsed : Nat} {response : Option Json}
    (hrecorded : Recorded serialize s files o h e session report elapsed response) :
    Concluded (h.shown s e report response) e (serialize.runEntry s files o h e) := by
  have hresult := hrecorded.judged.result
  refine ⟨hresult, ?_, ?_⟩
  · rw [hrecorded.runEntry_eq]
  · rw [← (Harness.judgedInOrder _ e).eq_ok_iff, ← hresult, map_eq_ok_iff]
    simp

/-- **Expectations, and then events.** For every harness, whatever is expected and whatever is to be
done.

Expectations are evaluated in order, each on what the one before it has left, up to the first that
fails or is false, which is reported by its source; nothing behind it is evaluated, and neither is
any event. None is reported just if each has a value that is not false. Events are evaluated in the
same way, up to the first that fails. Afterwards everything that the evaluations have written is
stored, in order, and nothing else has changed; one that fails has written what it had written when
its first error came up. An entry that is called, and whose response can be shown, succeeds just if
nothing is wrong with any of its expectations and events. -/
theorem judged_in_order :
    Harness.JudgesInOrder unmet Harness.check ∧ Harness.JudgesInOrder failed Harness.apply ∧
    (∀ source result, unmet source result = none ↔
      ∃ value, result = .ok value ∧ value ≠ .bool false) ∧
    (∀ source result, failed source result = none ↔ ∃ value, result = .ok value) ∧
    (∀ ev : Evaluation, ev.ByWrites) ∧
    (∀ h e, Harness.JudgedInOrder h e) ∧
    (∀ s files o h e, Serializer.total.runEntry s files o h e = runEntry s files o h e) ∧
    ∀ (serialize : Serializer) s files o h e session report elapsed,
      Called s files o h e session report elapsed →
      (∀ fault, serialize.document session report = .error fault →
        serialize.runEntry s files o h e =
          (.error ⟨["failed to render response"], .call fault⟩, h)) ∧
      ∀ response, serialize.document session report = .ok response →
        Concluded (h.shown s e report response) e (serialize.runEntry s files o h e) := by
  refine ⟨Harness.judges_check.judgesInOrder, Harness.judges_apply.judgesInOrder,
    fun source result ↦ unmet_eq_none_iff, fun source result ↦ failed_eq_none_iff,
    Evaluation.writes_of_evaluation, Harness.judgedInOrder, Serializer.runEntry_total, ?_⟩
  intro serialize s files o h e session report elapsed hcalled
  constructor
  · intro fault hfault
    exact (Unrecorded.unwritten hcalled hfault).runEntry_eq
  · intro response hresponse
    exact Recorded.concluded ⟨hcalled, hresponse⟩

/-- The only expectation of an entry is false, so that the entry does not succeed although it has
been called. -/
theorem judged_in_order_endless :
    let e := endless ["@contain(\"\", \"a\")"]
    ∃ session report elapsed, Called greeterSettings greeterFiles stopping {} e session report
        elapsed ∧
      ¬ ∃ r, (runEntry greeterSettings greeterFiles stopping {} e).1 = .ok r := by
  intro e
  obtain ⟨session, report, elapsed, hcalled, -⟩ := exists_called_endless ["@contain(\"\", \"a\")"]
  refine ⟨session, report, elapsed, hcalled, ?_⟩
  obtain ⟨hcheck, -, -, -, -, -, htotal, hentries⟩ := judged_in_order
  obtain ⟨-, hconcluded⟩ := hentries .total _ _ _ _ _ _ _ _ hcalled
  rw [← htotal, (hconcluded _ (Serializer.document_total session report)).succeeds_iff,
    ← hcheck.eq_ok_iff]
  rintro ⟨hok, -⟩
  cases (congrArg Prod.fst (check_unmet _)).symm.trans hok

end CallCheck.Probe

import CallCheck.Worker.Calling

/-!
# Stopping a call

A stop marks the token of a call while the call goes on. Nothing else in the call does: neither the
provider nor the interceptor, nor the message limit, nor the end of the time, although each of them
may end the call.

## Main statement

`Calling.stopped_iff`, for a call of any kind under any schedule. Each kind of call has one lemma
about its steps, and what holds of steps holds of schedules (`RaisedByStop.run_iff`).
-/

namespace CallCheck.Worker

open Call (Limits)
open Schema (CallKind)

variable {π ι α β σ : Type}

/-- A flag that a stop raises as long as there is no result, and that nothing else changes. -/
structure RaisedByStop {S ρ : Type} (step : Step → S → Option S) (flag : S → Bool)
    (result? : S → Option ρ) : Prop where
  stop : ∀ s, flag ((step .stop s).getD s) = (flag s || (result? s).isNone)
  keep : ∀ e s s', e ≠ .stop → step e s = some s' → flag s' = flag s

theorem exists_eq_append_cons_iff {e e' : Step} {rest : List Step} (P : List Step → Prop) :
    (∃ before after, e :: rest = before ++ e' :: after ∧ P before) ↔
      (e = e' ∧ P []) ∨ ∃ before after, rest = before ++ e' :: after ∧ P (e :: before) := by
  constructor
  · rintro ⟨before, after, heq, h⟩
    cases before with
    | nil => exact .inl ⟨(List.cons.inj heq).1, h⟩
    | cons first before =>
      obtain ⟨rfl, hrest⟩ := List.cons.inj heq
      exact .inr ⟨before, after, hrest, h⟩
  · rintro (⟨rfl, h⟩ | ⟨before, after, rfl, h⟩)
    · exact ⟨[], rest, rfl, h⟩
    · exact ⟨e :: before, after, rfl, h⟩

namespace RaisedByStop

variable {S ρ : Type} {step : Step → S → Option S} {flag : S → Bool} {result? : S → Option ρ}

theorem run_iff (h : RaisedByStop step flag result?) (schedule : List Step) (s : S) :
    flag (runSchedule step schedule s) = true ↔
      flag s = true ∨ ∃ before after, schedule = before ++ .stop :: after ∧
        result? (runSchedule step before s) = none := by
  induction schedule generalizing s with
  | nil => simp
  | cons e rest ih =>
    -- the first step is the stop that is looked for, or that stop comes later
    rw [runSchedule_cons, ih, exists_eq_append_cons_iff fun before ↦
      result? (runSchedule step before s) = none]
    simp only [runSchedule_cons, runSchedule_nil]
    by_cases he : e = .stop
    · subst he
      simp [h.stop, or_assoc]
    · have hflag : flag ((step e s).getD s) = flag s := by
        cases hs : step e s with
        | none => rfl
        | some s' => exact h.keep e s s' he hs
      simp [hflag, he]

/-- A flag that is down has been raised by a schedule just when a stop came before the result. -/
theorem run_iff_of_down (h : RaisedByStop step flag result?) {s : S} (hdown : flag s = false)
    (schedule : List Step) :
    flag (runSchedule step schedule s) = true ↔
      ∃ before after, schedule = before ++ .stop :: after ∧
        result? (runSchedule step before s) = none := by
  rw [h.run_iff, hdown]
  simp

end RaisedByStop

/-! ## Each kind of call -/

theorem Unary.raisedByStop (process : Process α β σ) (m : α) :
    RaisedByStop (step process m) Unary.stopped Unary.result? where
  stop c := by
    have hwaiting : c.result?.isNone = c.reply.isWaiting := by
      rw [result?]
      cases c.reply <;> rfl
    rw [hwaiting]
    by_cases hw : c.reply.isWaiting = true <;> simp [step, hw]
  keep e c c' he hs := by
    -- every other step, if it can be made, changes other parts of the call only
    cases e <;> simp only [step, reduceCtorEq] at hs
    case stop => exact absurd rfl he
    all_goals grind [Option.map_eq_some_iff]

theorem ServerStream.raisedByStop (intercept : Interceptor ι β) (limits : Limits)
    (process : Process α β σ) (m : α) :
    RaisedByStop (step intercept limits process m) ServerStream.stopped ServerStream.result? where
  stop c := by
    cases hr : c.receiving.result? <;> simp [step, isRunning, result?, hr]
  keep e c c' he hs := by
    cases e <;> simp only [step, reduceCtorEq] at hs
    case stop => exact absurd rfl he
    all_goals grind [Option.map_eq_some_iff]

@[simp] theorem ClientStream.stopped_settle (c : ClientStream π α β σ) (reply : Reply β) :
    (c.settle reply).stopped = c.stopped := by
  rw [settle]
  split <;> rfl

theorem ClientStream.raisedByStop (ask : Source π α) (limits : Limits) (process : Process α β σ) :
    RaisedByStop (step ask limits process) ClientStream.stopped ClientStream.result? where
  stop c := by
    cases hr : c.result? <;> simp [step, hr]
  keep e c c' he hs := by
    cases e <;> simp only [step] at hs
    case stop => exact absurd rfl he
    all_goals grind [Option.map_eq_some_iff, ClientStream.stopped_settle]

@[simp] theorem Bidi.stopped_settle (c : Bidi π ι α β σ) (receiving : Receiving ι β) :
    (c.settle receiving).stopped = c.stopped := by
  rw [settle]
  split <;> rfl

@[simp] theorem Bidi.stopped_receive (intercept : Interceptor ι β) (c : Bidi π ι α β σ)
    (a : Arrival β) : (c.receive intercept a).stopped = c.stopped := by
  rw [receive, stopped_settle]
  split <;> rfl

theorem Bidi.raisedByStop (ask : Source π α) (intercept : Interceptor ι β) (limits : Limits)
    (process : Process α β σ) :
    RaisedByStop (step ask intercept limits process) Bidi.stopped Bidi.result? where
  stop c := by
    cases hr : c.result? <;> simp [step, hr]
  keep e c c' he hs := by
    cases e <;> simp only [step] at hs
    case stop => exact absurd rfl he
    all_goals grind [Option.map_eq_some_iff, Bidi.stopped_settle, Bidi.stopped_receive]

/-- A call of a kind is stopped by a schedule: a stop comes while the call goes on. -/
def Calling.IsStopped (c : Calling π ι α β σ) (kind : CallKind) (schedule : List Step) : Prop :=
  ∃ before after, schedule = before ++ .stop :: after ∧ (c.run kind before).2 = none

/-- **Only a stop marks the token of a call**, and it does so whenever the call goes on. -/
theorem Calling.stopped_iff (c : Calling π ι α β σ) (kind : CallKind) (schedule : List Step) :
    (c.run kind schedule).1 = true ↔ c.IsStopped kind schedule := by
  cases kind with
  | unary =>
    cases hfirst : firstMessage c.ask c.provider with
    | error e => simp [run, withFirst, hfirst, IsStopped]
    | ok m =>
      simp only [IsStopped, run, withFirst, hfirst]
      exact (Unary.raisedByStop c.process m).run_iff_of_down rfl schedule
  | serverStreaming =>
    cases hfirst : firstMessage c.ask c.provider with
    | error e => simp [run, withFirst, hfirst, IsStopped]
    | ok m =>
      simp only [IsStopped, run, withFirst, hfirst]
      exact (ServerStream.raisedByStop _ _ c.process m).run_iff_of_down rfl schedule
  | clientStreaming => exact (ClientStream.raisedByStop _ _ _).run_iff_of_down rfl schedule
  | bidi => exact (Bidi.raisedByStop _ _ _ _).run_iff_of_down rfl schedule

end CallCheck.Worker

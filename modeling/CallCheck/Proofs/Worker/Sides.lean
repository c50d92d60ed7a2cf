import CallCheck.Proofs.Worker.Asking
import CallCheck.Proofs.Worker.Conversing
import CallCheck.Worker.ClientStream

/-!
# Two sides of a call

In a call with a stream of messages a sending loop and a receiving side run side by side, and each
tells the other when it has ended: the end of the receiving side tells the sending loop to end, and
a provider that fails makes the receiving side give up. `TwoSided` says what a step does to both,
and it holds of calls with one reply and of calls with a stream of replies alike.

Of what the steps of a call do there are fewer kinds than of steps: all that concern the sending
loop alone give it some turns. `Bidi.Proceeds` and `ClientStream.Proceeds` list them once, and what
steps keep is shown by the cases of these.

## Main statements

* `TwoSided.exists_turns`: the sending loop of a call is one that has had some turns, so all that
  is known of such a loop is known here.
* `TwoSided.ends_of_quit`, `TwoSided.ends_of_send`: each side ends when it has its turn after the
  other has failed or ended.
-/

namespace CallCheck.Worker

open Call (Error Limits)

variable {π ι α β σ S : Type} {ask : Source π α} {limits : Limits}

/-! ## Turns of a loop that is about to end -/

namespace Sending

variable {s s' : Sending π α}

theorem turn_go (hs : s.go ask limits = some s') : turn ask limits s .go = s' := by
  rw [turn, hs, Option.getD_some]

theorem turn_rest (ask : Source π α) (limits : Limits) (hs : s.rest = some s') :
    turn ask limits s .rest = s' := by
  rw [turn, hs, Option.getD_some]

theorem turn_take (ask : Source π α) (limits : Limits) (hs : s.take = some s') :
    turn ask limits s .take = s' := by
  rw [turn, hs, Option.getD_some]

theorem ended_turn (h : s.ended = true) (t : Turn) : (turn ask limits s t).ended = true := by
  cases t with
  | go =>
    rw [turn]
    cases hs : s.go ask limits with
    | none => exact h
    | some s' => exact (Rests.go h hs).1.ended
  | rest =>
    rw [turn]
    cases hs : s.rest with
    | none => exact h
    | some s' => exact (Rests.rest h hs).ended
  | take =>
    rw [turn]
    cases hs : s.take with
    | none => exact h
    | some s' => exact (Rests.take h hs).ended
  | close => exact h
  | fire token => rfl

theorem ended_foldl (h : s.ended = true) (turns : List Turn) :
    (turns.foldl (turn ask limits) s).ended = true := by
  induction turns generalizing s with
  | nil => exact h
  | cons t turns ih => exact ih (ended_turn h t)

theorem result?_turn (h : s.result?.isSome) (t : Turn) :
    (turn ask limits s t).result? = s.result? := by
  cases t with
  | go => rw [turn, go_eq_none h, Option.getD_none]
  | rest => rw [turn, rest_eq_none h, Option.getD_none]
  | take =>
    rw [turn, take]
    split
    · rfl
    · cases s.channel.next? <;> rfl
  | close => rfl
  | fire token => rfl

theorem result?_foldl (h : s.result?.isSome) (turns : List Turn) :
    (turns.foldl (turn ask limits) s).result? = s.result? := by
  induction turns generalizing s with
  | nil => rfl
  | cons t turns ih =>
    have hturn : (turn ask limits s t).result? = s.result? := result?_turn h t
    exact (ih (hturn ▸ h)).trans hturn

theorem isSome_result_turn (h : s.ended = true) : (turn ask limits s .go).result?.isSome := by
  rw [turn]
  cases hs : s.go ask limits with
  | some s' => exact Option.isSome_of_eq_some (Rests.go h hs).2
  | none =>
    rw [Option.getD_none]
    cases hresult : s.result? with
    | some result => rfl
    | none =>
      have hgo : (s.go ask limits).isSome := Rests.isSome_go h hresult
      rw [hs] at hgo
      cases hgo

end Sending

/-! ## Two sides -/

/-- What a step does to a sending loop and to a receiving side that may have ended. -/
structure Moves (ask : Source π α) (limits : Limits) (s s' : Sending π α) (done done' : Bool) :
    Prop where
  /-- The sending loop has some turns. -/
  turns : ∃ turns : List Turn, s' = turns.foldl (Sending.turn ask limits) s
  /-- A receiving side that has ended stays so. -/
  stays : done = true → done' = true
  /-- When the receiving side ends, the sending loop is told to end. -/
  told : done' = true → done = true ∨ s'.ended = true

namespace Moves

variable {s s' : Sending π α} {done : Bool}

theorem of_turns (turns : List Turn) :
    Moves ask limits s (turns.foldl (Sending.turn ask limits) s) done done :=
  ⟨⟨turns, rfl⟩, fun h ↦ h, .inl⟩

theorem failed {done' : Bool} (h : Moves ask limits s s' done done') (hfailed : s.failed = true) :
    s'.failed = true := by
  obtain ⟨turns, rfl⟩ := h.turns
  rw [Sending.failed] at hfailed ⊢
  split at hfailed
  · rename_i hresult
    rw [Sending.result?_foldl (Option.isSome_of_eq_some hresult), hresult]
  · cases hfailed

end Moves

/-- A call with a sending loop and a receiving side. -/
structure TwoSided (ask : Source π α) (limits : Limits) (step : Step → S → Option S)
    (sending : S → Sending π α) (isDone : S → Bool) : Prop where
  /-- Every step is one of both sides. -/
  moves : ∀ e s s', step e s = some s' →
    Moves ask limits (sending s) (sending s') (isDone s) (isDone s')
  /-- The sending loop has its turn. -/
  send : ∀ s, sending ((step .send s).getD s) = Sending.turn ask limits (sending s) .go
  /-- The receiving side gives up if the provider has failed. -/
  quit : ∀ s, (sending s).failed = true → isDone ((step .quit s).getD s) = true

namespace TwoSided

variable {step : Step → S → Option S} {sending : S → Sending π α} {isDone : S → Bool} {s : S}

/-- **Run lemma.** A schedule gives some turns to the sending loop. -/
theorem exists_turns (h : TwoSided ask limits step sending isDone) (schedule : List Step) (s : S) :
    ∃ turns : List Turn, sending (runSchedule step schedule s) =
      turns.foldl (Sending.turn ask limits) (sending s) := by
  induction schedule generalizing s with
  | nil => exact ⟨[], rfl⟩
  | cons e rest ih =>
    rw [runSchedule_cons]
    cases hs : step e s with
    | none => exact ih s
    | some s' =>
      obtain ⟨first, hfirst⟩ := (h.moves e s s' hs).turns
      obtain ⟨later, hlater⟩ := ih s'
      refine ⟨first ++ later, hlater.trans ?_⟩
      rw [hfirst, List.foldl_append]

theorem isDone_runSchedule (h : TwoSided ask limits step sending isDone) (schedule : List Step)
    (hdone : isDone s = true) : isDone (runSchedule step schedule s) = true :=
  runSchedule_induction (fun e s s' hs ↦ (h.moves e s s' hs).stays) schedule hdone

theorem ended_runSchedule (h : TwoSided ask limits step sending isDone) (schedule : List Step)
    (hended : (sending s).ended = true) :
    (sending (runSchedule step schedule s)).ended = true := by
  obtain ⟨turns, hturns⟩ := h.exists_turns schedule s
  rw [hturns]
  exact Sending.ended_foldl hended turns

theorem result_runSchedule (h : TwoSided ask limits step sending isDone) (schedule : List Step)
    (hsome : (sending s).result?.isSome) :
    (sending (runSchedule step schedule s)).result? = (sending s).result? := by
  obtain ⟨turns, hturns⟩ := h.exists_turns schedule s
  rw [hturns]
  exact Sending.result?_foldl hsome turns

theorem isDone_of_quit (h : TwoSided ask limits step sending isDone) {later : List Step}
    (hquit : .quit ∈ later) {e : Error} (herror : (sending s).result? = some (.error e)) :
    isDone (runSchedule step later s) = true := by
  obtain ⟨before, after, rfl⟩ := List.append_of_mem hquit
  rw [runSchedule_append, runSchedule_cons]
  apply h.isDone_runSchedule
  -- The loop still has its failure when the turn comes.
  apply h.quit
  rw [Sending.failed, h.result_runSchedule before (Option.isSome_of_eq_some herror), herror]

theorem isSome_result_of_send (h : TwoSided ask limits step sending isDone) {later : List Step}
    (hsend : .send ∈ later) (hended : (sending s).ended = true) :
    (sending (runSchedule step later s)).result?.isSome := by
  obtain ⟨before, after, rfl⟩ := List.append_of_mem hsend
  rw [runSchedule_append, runSchedule_cons]
  -- The loop may have ended before its turn, and then the turn changes nothing.
  have hturn : (sending ((step .send (runSchedule step before s)).getD
      (runSchedule step before s))).result?.isSome := by
    rw [h.send]
    exact Sending.isSome_result_turn (h.ended_runSchedule before hended)
  rw [h.result_runSchedule after hturn]
  exact hturn

/-- **Run lemma.** If the receiving side has ended, the sending loop has been told so. -/
theorem told_runSchedule (h : TwoSided ask limits step sending isDone) (schedule : List Step)
    (hstart : isDone s = false) (hdone : isDone (runSchedule step schedule s) = true) :
    (sending (runSchedule step schedule s)).ended = true := by
  -- A loop that has been told to end stays so, whoever goes on.
  refine runSchedule_induction (P := fun s ↦ isDone s = true → (sending s).ended = true)
    (fun e s s' hs htold hdone ↦ ?_) schedule ?_ hdone
  · have hmoves := h.moves e s s' hs
    rcases hmoves.told hdone with hbefore | hended
    · obtain ⟨turns, hturns⟩ := hmoves.turns
      rw [hturns]
      exact Sending.ended_foldl (htold hbefore) turns
    · exact hended
  · intro htrue
    rw [hstart] at htrue
    cases htrue

/-- The receiving side gives up after the provider has failed, and the failure stays. -/
theorem ends_of_quit (h : TwoSided ask limits step sending isDone) {later : List Step}
    (hquit : .quit ∈ later) {e : Error} (herror : (sending s).result? = some (.error e)) :
    (sending (runSchedule step later s)).result? = some (.error e) ∧
      isDone (runSchedule step later s) = true := by
  refine ⟨?_, h.isDone_of_quit hquit herror⟩
  rw [h.result_runSchedule later (Option.isSome_of_eq_some herror), herror]

/-- The sending loop ends after the receiving side has ended, and that stays ended. -/
theorem ends_of_send (h : TwoSided ask limits step sending isDone) (schedule : List Step)
    {later : List Step} (hsend : .send ∈ later) (hstart : isDone s = false)
    (hdone : isDone (runSchedule step schedule s) = true) :
    (sending (runSchedule step (schedule ++ later) s)).result?.isSome ∧
      isDone (runSchedule step (schedule ++ later) s) = true := by
  rw [runSchedule_append]
  exact ⟨h.isSome_result_of_send hsend (h.told_runSchedule schedule hstart hdone),
    h.isDone_runSchedule later hdone⟩

end TwoSided

/-! ## Calls with a stream of replies -/

namespace Bidi

variable {intercept : Interceptor ι β} {process : Process α β σ}

theorem moves_settle (ask : Source π α) (limits : Limits) (c : Bidi π ι α β σ) {s : Sending π α}
    {turns : List Turn} (hturns : c.sending = turns.foldl (Sending.turn ask limits) s)
    (r : Receiving ι β) : Moves ask limits s (c.settle r).sending false
      (c.settle r).receiving.result?.isSome := by
  rw [settle]
  split
  · rename_i hnone
    rw [Option.isNone_iff_eq_none] at hnone
    refine ⟨⟨turns, hturns⟩, fun h ↦ absurd h Bool.false_ne_true, fun hsome ↦ ?_⟩
    rw [hnone] at hsome
    cases hsome
  · refine ⟨⟨turns ++ [.fire .done], ?_⟩, fun h ↦ absurd h Bool.false_ne_true, fun _ ↦ .inr rfl⟩
    rw [List.foldl_append, ← hturns]
    rfl

/-- What one step does to a call. -/
inductive Proceeds (ask : Source π α) (intercept : Interceptor ι β) (limits : Limits)
    (process : Process α β σ) (c : Bidi π ι α β σ) : Bidi π ι α β σ → Prop
  /-- The sending loop has some turns. -/
  | turns (turns : List Turn) : Proceeds ask intercept limits process c
      { c with sending := turns.foldl (Sending.turn ask limits) c.sending }
  /-- The server goes on. -/
  | serve {request : List α} {whole : Bool} {serving : Serving β σ} :
      c.serving.step process request whole = some serving →
      Proceeds ask intercept limits process c { c with serving }
  /-- The receiving loop, which has not ended, takes what has arrived. -/
  | receive {a : Arrival β} {serving : Serving β σ} : c.receiving.result? = none →
      c.serving.deliver = some (a, serving) →
      Proceeds ask intercept limits process c ({ c with serving }.receive intercept a)
  /-- The receiving loop, which has not ended, gives up. -/
  | quit : c.receiving.result? = none →
      Proceeds ask intercept limits process c (c.settle c.receiving.finish)
  /-- The call is stopped. -/
  | stop : Proceeds ask intercept limits process c
      { c with sending := c.sending.tellToEnd, stopped := true }

theorem proceeds_of_step {e : Step} {c c' : Bidi π ι α β σ}
    (hs : step ask intercept limits process e c = some c') :
    Proceeds ask intercept limits process c c' := by
  cases e with
  | send =>
    obtain ⟨sending, hgo, rfl⟩ := Option.map_eq_some_iff.1 hs
    obtain rfl := Sending.turn_go hgo
    exact .turns [.go]
  | rest =>
    obtain ⟨sending, hrest, rfl⟩ := Option.map_eq_some_iff.1 hs
    obtain rfl := Sending.turn_rest ask limits hrest
    exact .turns [.rest]
  | take =>
    obtain ⟨sending, htake, rfl⟩ := Option.map_eq_some_iff.1 hs
    obtain rfl := Sending.turn_take ask limits htake
    exact .turns [.take]
  | close =>
    rw [step, Option.ite_none_right_eq_some] at hs
    obtain rfl := Option.some.inj hs.2
    exact .turns [.close]
  | serve =>
    obtain ⟨serving, hserve, rfl⟩ := Option.map_eq_some_iff.1 hs
    exact .serve hserve
  | receive =>
    obtain ⟨hnone, a, serving, hdeliver, rfl⟩ := step_receive hs
    exact .receive hnone hdeliver
  | quit =>
    rw [step, Option.ite_none_right_eq_some, Bool.and_eq_true, Option.isNone_iff_eq_none] at hs
    obtain rfl := Option.some.inj hs.2
    exact .quit hs.1.2
  | expire =>
    rw [step, Option.ite_none_right_eq_some] at hs
    obtain rfl := Option.some.inj hs.2
    exact .turns [.fire .cancel]
  | stop =>
    rw [step, Option.ite_none_right_eq_some] at hs
    obtain rfl := Option.some.inj hs.2
    exact .stop

theorem twoSided (ask : Source π α) (intercept : Interceptor ι β) (limits : Limits)
    (process : Process α β σ) :
    TwoSided ask limits (step ask intercept limits process) Bidi.sending
      fun c ↦ c.receiving.result?.isSome where
  moves e c c' hs := by
    cases proceeds_of_step hs with
    | turns turns => exact .of_turns turns
    | serve => exact .of_turns []
    | stop => exact .of_turns [.fire .cancel]
    | @receive a serving hnone =>
      rw [hnone, receive]
      dsimp only
      -- The interceptor may tell the sending loop to end, whether the receiving loop ends or not.
      split
      · have hturns : c.sending.tellToEnd =
            [Turn.fire .cancel].foldl (Sending.turn ask limits) c.sending := rfl
        exact moves_settle ask limits { c with serving, sending := c.sending.tellToEnd } hturns _
      · have hturns : c.sending = [].foldl (Sending.turn ask limits) c.sending := rfl
        exact moves_settle ask limits { c with serving } hturns _
    | quit hnone =>
      rw [hnone]
      have hturns : c.sending = [].foldl (Sending.turn ask limits) c.sending := rfl
      exact moves_settle ask limits c hturns _
  send c := by
    rw [step, Sending.turn]
    cases c.sending.go ask limits <;> rfl
  quit c hfailed := by
    rw [step, abandons, hfailed, Bool.or_true, Bool.true_and]
    split
    · rw [Option.getD_some, settle]
      split <;> rfl
    · rename_i hsome
      rw [Option.isNone_iff_eq_none] at hsome
      exact Option.isSome_iff_ne_none.2 hsome

/-- The call without the log of its provider. -/
def forgetLog (c : Bidi (π × Log α) ι α β σ) : Bidi π ι α β σ :=
  ⟨c.sending.forget, c.serving, c.receiving, c.stopped⟩

theorem forgetLog_settle (c : Bidi (π × Log α) ι α β σ) (r : Receiving ι β) :
    (c.settle r).forgetLog = c.forgetLog.settle r := by
  rw [settle, apply_ite forgetLog]
  rfl

theorem forgetLog_receive (c : Bidi (π × Log α) ι α β σ) (a : Arrival β) :
    (c.receive intercept a).forgetLog = c.forgetLog.receive intercept a := by
  rw [receive, receive, forgetLog_settle, apply_ite forgetLog]
  rfl

theorem forgetLog_step (e : Step) (c : Bidi (π × Log α) ι α β σ) :
    (step ask.recorded intercept limits process e c).map forgetLog =
      step ask intercept limits process e c.forgetLog := by
  cases e with
  | send =>
    rw [step, step, Option.map_map]
    change _ = (c.sending.forget.go ask limits).map _
    rw [← Sending.forget_go, Option.map_map]
    rfl
  | rest =>
    rw [step, step, Option.map_map]
    change _ = c.sending.forget.rest.map _
    rw [← Sending.forget_rest, Option.map_map]
    rfl
  | take =>
    rw [step, step, Option.map_map]
    change _ = c.sending.forget.take.map _
    rw [← Sending.forget_take, Option.map_map]
    rfl
  | close =>
    rw [step, step, apply_ite (Option.map forgetLog)]
    rfl
  | serve =>
    rw [step, step, Option.map_map]
    rfl
  | receive =>
    have hreceive (delivered : Arrival β × Serving β σ) :
        ({ c with serving := delivered.2 }.receive intercept delivered.1).forgetLog =
          { c.forgetLog with serving := delivered.2 }.receive intercept delivered.1 :=
      forgetLog_receive _ _
    have hdeliver := congrArg (c.serving.deliver.map ·) (funext hreceive)
    rw [step_receive_eq, step_receive_eq, apply_ite (Option.map forgetLog), Option.map_map]
    exact ite_congr rfl (fun _ ↦ hdeliver) fun _ ↦ rfl
  | quit =>
    rw [step, step, apply_ite (Option.map forgetLog), Option.map_some, forgetLog_settle]
    rfl
  | expire =>
    rw [step, step, apply_ite (Option.map forgetLog)]
    rfl
  | stop =>
    rw [step, step, apply_ite (Option.map forgetLog)]
    rfl

theorem forgetLog_run (provider : π) (watch : ι) (start : σ) (schedule : List Step) :
    (run ask.recorded intercept limits process (provider, []) watch start schedule).forgetLog =
      run ask intercept limits process provider watch start schedule :=
  runSchedule_map forgetLog_step schedule _

end Bidi

/-! ## Calls with one reply -/

namespace ClientStream

variable {process : Process α β σ}

theorem moves_settle (ask : Source π α) (limits : Limits) (c : ClientStream π α β σ)
    (reply : Reply β) : Moves ask limits c.sending (c.settle reply).sending false
      (!(c.settle reply).reply.isWaiting) := by
  rw [settle]
  split
  · rename_i hwaiting
    refine ⟨⟨[], rfl⟩, fun h ↦ absurd h Bool.false_ne_true, fun hdone ↦ ?_⟩
    rw [hwaiting] at hdone
    cases hdone
  · exact ⟨⟨[.fire .done], rfl⟩, fun h ↦ absurd h Bool.false_ne_true, fun _ ↦ .inr rfl⟩

/-- What one step does to a call. -/
inductive Proceeds (ask : Source π α) (limits : Limits) (process : Process α β σ)
    (c : ClientStream π α β σ) : ClientStream π α β σ → Prop
  /-- The sending loop has some turns. -/
  | turns (turns : List Turn) : Proceeds ask limits process c
      { c with sending := turns.foldl (Sending.turn ask limits) c.sending }
  /-- The server goes on. -/
  | serve {request : List α} {whole : Bool} {serving : Serving β σ} :
      c.serving.step process request whole = some serving →
      Proceeds ask limits process c { c with serving }
  /-- Something arrives, and the reply is waited for. -/
  | receive {a : Arrival β} {serving : Serving β σ} : c.reply.isWaiting = true →
      c.serving.deliver = some (a, serving) →
      Proceeds ask limits process c ({ c with serving }.settle (c.reply.arrive a))
  /-- The reply, which is waited for, is given up. -/
  | quit : c.stopped = true ∨ c.sending.failed = true → c.reply.isWaiting = true →
      Proceeds ask limits process c (c.settle .abandoned)
  /-- The call is stopped. -/
  | stop : Proceeds ask limits process c
      { c with sending := c.sending.tellToEnd, stopped := true }

theorem proceeds_of_step {e : Step} {c c' : ClientStream π α β σ}
    (hs : step ask limits process e c = some c') : Proceeds ask limits process c c' := by
  cases e with
  | send =>
    obtain ⟨sending, hgo, rfl⟩ := Option.map_eq_some_iff.1 hs
    obtain rfl := Sending.turn_go hgo
    exact .turns [.go]
  | rest =>
    obtain ⟨sending, hrest, rfl⟩ := Option.map_eq_some_iff.1 hs
    obtain rfl := Sending.turn_rest ask limits hrest
    exact .turns [.rest]
  | take =>
    obtain ⟨sending, htake, rfl⟩ := Option.map_eq_some_iff.1 hs
    obtain rfl := Sending.turn_take ask limits htake
    exact .turns [.take]
  | close =>
    rw [step, Option.ite_none_right_eq_some] at hs
    obtain rfl := Option.some.inj hs.2
    exact .turns [.close]
  | serve =>
    obtain ⟨serving, hserve, rfl⟩ := Option.map_eq_some_iff.1 hs
    exact .serve hserve
  | receive =>
    rw [step, Option.ite_none_right_eq_some] at hs
    obtain ⟨hwaiting, hdelivered⟩ := hs
    obtain ⟨⟨a, serving⟩, hdeliver, rfl⟩ := Option.map_eq_some_iff.1 hdelivered
    exact .receive hwaiting hdeliver
  | quit =>
    rw [step, Option.ite_none_right_eq_some, Bool.and_eq_true, Bool.or_eq_true] at hs
    obtain rfl := Option.some.inj hs.2
    exact .quit hs.1.1 hs.1.2
  | expire =>
    rw [step, Option.ite_none_right_eq_some] at hs
    obtain rfl := Option.some.inj hs.2
    exact .turns [.fire .cancel]
  | stop =>
    rw [step, Option.ite_none_right_eq_some] at hs
    obtain rfl := Option.some.inj hs.2
    exact .stop

theorem twoSided (ask : Source π α) (limits : Limits) (process : Process α β σ) :
    TwoSided ask limits (step ask limits process) ClientStream.sending
      fun c ↦ !c.reply.isWaiting where
  moves e c c' hs := by
    cases proceeds_of_step hs with
    | turns turns => exact .of_turns turns
    | serve => exact .of_turns []
    | stop => exact .of_turns [.fire .cancel]
    | @receive a serving hwaiting =>
      rw [hwaiting]
      exact moves_settle ask limits { c with serving } _
    | quit _ hwaiting =>
      rw [hwaiting]
      exact moves_settle ask limits c _
  send c := by
    rw [step, Sending.turn]
    cases c.sending.go ask limits <;> rfl
  quit c hfailed := by
    rw [step, hfailed, Bool.or_true, Bool.true_and]
    split
    · rfl
    · rename_i hwaiting
      rw [Option.getD_none, Bool.not_eq_true'] at *
      exact Bool.eq_false_iff.2 hwaiting

/-- The call without the log of its provider. -/
def forgetLog (c : ClientStream (π × Log α) α β σ) : ClientStream π α β σ :=
  ⟨c.sending.forget, c.serving, c.reply, c.stopped⟩

theorem forgetLog_settle (c : ClientStream (π × Log α) α β σ) (reply : Reply β) :
    (c.settle reply).forgetLog = c.forgetLog.settle reply := by
  rw [settle, apply_ite forgetLog]
  rfl

theorem forgetLog_step (e : Step) (c : ClientStream (π × Log α) α β σ) :
    (step ask.recorded limits process e c).map forgetLog =
      step ask limits process e c.forgetLog := by
  cases e with
  | send =>
    rw [step, step, Option.map_map]
    change _ = (c.sending.forget.go ask limits).map _
    rw [← Sending.forget_go, Option.map_map]
    rfl
  | rest =>
    rw [step, step, Option.map_map]
    change _ = c.sending.forget.rest.map _
    rw [← Sending.forget_rest, Option.map_map]
    rfl
  | take =>
    rw [step, step, Option.map_map]
    change _ = c.sending.forget.take.map _
    rw [← Sending.forget_take, Option.map_map]
    rfl
  | close =>
    rw [step, step, apply_ite (Option.map forgetLog)]
    rfl
  | serve =>
    rw [step, step, Option.map_map]
    rfl
  | receive =>
    have hsettle (delivered : Arrival β × Serving β σ) :
        ({ c with serving := delivered.2 }.settle (c.reply.arrive delivered.1)).forgetLog =
          { c.forgetLog with serving := delivered.2 }.settle (c.reply.arrive delivered.1) :=
      forgetLog_settle _ _
    have hdeliver := congrArg (c.serving.deliver.map ·) (funext hsettle)
    rw [step, step, apply_ite (Option.map forgetLog), Option.map_map]
    exact ite_congr rfl (fun _ ↦ hdeliver) fun _ ↦ rfl
  | quit =>
    rw [step, step, apply_ite (Option.map forgetLog), Option.map_some, forgetLog_settle]
    rfl
  | expire =>
    rw [step, step, apply_ite (Option.map forgetLog)]
    rfl
  | stop =>
    rw [step, step, apply_ite (Option.map forgetLog)]
    have hresult : c.forgetLog.result? = c.result? := rfl
    rw [hresult]
    rfl

theorem forgetLog_run (provider : π) (start : σ) (schedule : List Step) :
    (run ask.recorded limits process (provider, []) start schedule).forgetLog =
      run ask limits process provider start schedule :=
  runSchedule_map forgetLog_step schedule _

end ClientStream

end CallCheck.Worker

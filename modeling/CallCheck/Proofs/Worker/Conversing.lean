import CallCheck.Proofs.Worker.Answer
import CallCheck.Proofs.Worker.Conveying
import CallCheck.Proofs.Worker.Listening
import CallCheck.Worker.Bidi

/-!
# Conversations

A call with streams both ways, with any provider, any interceptor and any server, under any
schedule. The interceptor keeps a record; the record changes nothing (`Bidi.run_recorded`).

## Main statement

`Bidi.run_conversation` collects what holds of every schedule. What the transport takes is a
beginning of what the provider gives. What is reported as received is what has been delivered, and
the interceptor has been shown each message once. The receiving loop ends for its own reasons only,
and the sending loop ends at its next turn after it has been told to. All of it rests on one
invariant, `Bidi.Converses`, which every step keeps.
-/

namespace CallCheck.Worker

open Call (Error Limits Status)

variable {π ι α β σ : Type}

/-! ## The record changes nothing -/

theorem runSchedule_map {S T : Type} {step : Step → S → Option S} {step' : Step → T → Option T}
    {f : S → T} (hstep : ∀ e s, (step e s).map f = step' e (f s)) (schedule : List Step) (s : S) :
    f (runSchedule step schedule s) = runSchedule step' schedule (f s) := by
  induction schedule generalizing s with
  | nil => rfl
  | cons e rest ih =>
    rw [runSchedule_cons, runSchedule_cons, ih, ← hstep]
    cases step e s <;> rfl

/-- The loop without the record of its interceptor. -/
def Receiving.forget (r : Receiving (ι × Record β) β) : Receiving ι β :=
  ⟨r.watch.1, r.phase, r.received, r.last, r.headers⟩

theorem Receiving.arrive_forget (intercept : Interceptor ι β) (r : Receiving (ι × Record β) β)
    (a : Arrival β) :
    r.forget.arrive intercept a =
      ((r.arrive intercept.recorded a).1, (r.arrive intercept.recorded a).2.forget) := by
  obtain ⟨⟨watch, record⟩, phase, received, last, headers⟩ := r
  cases phase with
  | finished result => rfl
  | opening =>
    cases a with
    | ended fault => cases fault <;> rfl
    | _ => rfl
  | reading =>
    cases a with
    | headers headers => rfl
    | message m =>
      simp only [forget, arrive, accept, Interceptor.recorded]
      rcases intercept watch (.ok m) with ⟨answer, watch⟩
      cases answer <;> rfl
    | ended fault =>
      cases fault with
      | none => rfl
      | some status =>
        simp only [forget, arrive, fail, Interceptor.recorded]
        rcases intercept watch (.error status) with ⟨answer, watch⟩
        rcases answer with e | verdict
        · rfl
        · cases verdict <;> rfl

namespace Bidi

variable {ask : Source π α} {intercept : Interceptor ι β} {limits : Limits}
  {process : Process α β σ}

/-- The call without the record of its interceptor. -/
def forget (c : Bidi π (ι × Record β) α β σ) : Bidi π ι α β σ :=
  ⟨c.sending, c.serving, c.receiving.forget, c.stopped⟩

theorem forget_settle (c : Bidi π (ι × Record β) α β σ) (r : Receiving (ι × Record β) β) :
    (c.settle r).forget = c.forget.settle r.forget := by
  rw [settle, apply_ite forget]
  rfl

theorem forget_receive (c : Bidi π (ι × Record β) α β σ) (a : Arrival β) :
    (c.receive intercept.recorded a).forget = c.forget.receive intercept a := by
  have harrive : c.forget.receiving.arrive intercept a = _ := c.receiving.arrive_forget intercept a
  rw [receive, receive, harrive, forget_settle, apply_ite forget]
  rfl

theorem step_receive_eq (ask : Source π α) (intercept : Interceptor ι β) (limits : Limits)
    (process : Process α β σ) (c : Bidi π ι α β σ) :
    step ask intercept limits process .receive c =
      if c.receiving.takes c.abandons then
        c.serving.deliver.map fun (a, serving) ↦ { c with serving }.receive intercept a
      else none := by
  rw [step, Receiving.takes]
  cases c.receiving.phase with
  | finished result => rfl
  | opening => simp only [Bool.and_false, Bool.false_eq_true, if_false, if_true]
  | reading => cases c.abandons <;> rfl

theorem forget_step (e : Step) (c : Bidi π (ι × Record β) α β σ) :
    (step ask intercept.recorded limits process e c).map forget =
      step ask intercept limits process e c.forget := by
  cases e with
  | send => rw [step, step, Option.map_map]; rfl
  | rest => rw [step, step, Option.map_map]; rfl
  | take => rw [step, step, Option.map_map]; rfl
  | close => rw [step, step, apply_ite (Option.map forget)]; rfl
  | serve => rw [step, step, Option.map_map]; rfl
  | receive =>
    have hreceive (delivered : Arrival β × Serving β σ) :
        ({ c with serving := delivered.2 }.receive intercept.recorded delivered.1).forget =
          { c.forget with serving := delivered.2 }.receive intercept delivered.1 :=
      forget_receive _ _
    have hdeliver := congrArg (c.serving.deliver.map ·) (funext hreceive)
    rw [step_receive_eq, step_receive_eq, apply_ite (Option.map forget), Option.map_map]
    exact ite_congr rfl (fun _ ↦ hdeliver) fun _ ↦ rfl
  | quit => rw [step, step, apply_ite (Option.map forget), Option.map_some, forget_settle]; rfl
  | expire => rw [step, step, apply_ite (Option.map forget)]; rfl
  | stop => rw [step, step, apply_ite (Option.map forget)]; rfl

/-- Without the record the call is the call with the interceptor itself. -/
theorem run_recorded (provider : π) (watch : ι) (start : σ) (schedule : List Step) :
    (run ask intercept.recorded limits process provider (watch, []) start schedule).forget =
      run ask intercept limits process provider watch start schedule :=
  runSchedule_map forget_step schedule _

end Bidi

/-! ## The end of a call is the last of an answer -/

/-- A server sends nothing after it has ended the call. -/
structure Serving.Orderly (s : Serving β σ) : Prop where
  /-- No more is delivered than has been sent. -/
  taken_le : s.answer.taken ≤ s.answer.written.length
  /-- A server that has not ended the call has not sent the end. -/
  not_ended : s.state.isSome → ∀ fault, .ended fault ∉ s.answer.written
  /-- Nothing but the last that has been sent is the end. -/
  not_ended_before : ∀ fault, .ended fault ∉ s.answer.written.dropLast

namespace Serving.Orderly

variable {process : Process α β σ} {request : List α} {whole : Bool} {s s' : Serving β σ}

theorem start (state : σ) : Serving.Orderly ({ state := some state } : Serving β σ) where
  taken_le := Nat.le_refl 0
  not_ended _ _ := List.not_mem_nil
  not_ended_before _ := List.not_mem_nil

theorem serves (h : s.Orderly) (hs : Serves process request whole s s') : s'.Orderly := by
  have hput (a : Arrival β) : s.answer.taken ≤ (s.answer.put a).written.length := by
    rw [Pipe.written_put, List.length_append]
    exact Nat.le_add_right_of_le h.taken_le
  have hbefore (hstate : s.state.isSome) (a : Arrival β) (fault : Option Status) :
      .ended fault ∉ (s.answer.put a).written.dropLast := by
    rw [Pipe.written_put, List.dropLast_concat]
    exact h.not_ended hstate fault
  cases hs with
  | hear hst => exact ⟨h.taken_le, fun _ ↦ h.not_ended (hst ▸ rfl), h.not_ended_before⟩
  | hearEnd hst => exact ⟨h.taken_le, fun _ ↦ h.not_ended (hst ▸ rfl), h.not_ended_before⟩
  | say hst hsay =>
    refine ⟨hput _, fun _ fault hmem ↦ ?_, hbefore (hst ▸ rfl) _⟩
    rcases List.mem_append.1 hmem with hmem | hmem
    · exact h.not_ended (hst ▸ rfl) fault hmem
    · obtain rfl := List.mem_singleton.1 hmem
      cases hsay
  | finish hst =>
    exact ⟨hput _, fun hnone ↦ (Bool.false_ne_true hnone).elim, hbefore (hst ▸ rfl) _⟩

theorem deliver (h : s.Orderly) {a : Arrival β} (hs : s.deliver = some (a, s')) :
    s'.Orderly ∧ s'.answer.passed = s.answer.passed ++ [a] := by
  obtain ⟨b, hnext, heq⟩ := Option.map_eq_some_iff.1 hs
  obtain ⟨rfl, rfl⟩ := Prod.mk.inj heq
  have hlt := (Pipe.isSome_next? s.answer).1 (hnext ▸ rfl)
  exact ⟨⟨hlt, h.not_ended, h.not_ended_before⟩, Pipe.passed_take hnext⟩

theorem passed_eq_of_ended (h : s.Orderly) {fault : Option Status}
    (hended : .ended fault ∈ s.answer.passed) : s.answer.passed = s.answer.written := by
  rcases Nat.lt_or_eq_of_le h.taken_le with hlt | heq
  · -- Otherwise the end would stand before the last that has been sent.
    have hmem : .ended fault ∈ s.answer.written.dropLast := by
      rw [List.dropLast_eq_take]
      exact (List.take_prefix_take_left (Nat.le_sub_one_of_lt hlt)).subset hended
    exact absurd hmem (h.not_ended_before fault)
  · rw [Pipe.passed, heq, List.take_length]

end Serving.Orderly

/-! ## What every step keeps -/

namespace Bidi

variable {ask : Source π α} {intercept : Interceptor ι β} {limits : Limits}
  {process : Process α β σ} {provider : π} {c c' : Bidi π (ι × Record β) α β σ} {e : Step}

/-- What tells the sending loop to end, apart from the time of the stream. -/
def TellsToEnd (c : Bidi π (ι × Record β) α β σ) : Prop :=
  c.stopped = true ∨ c.receiving.result?.isSome ∨
    ∃ m, (.ok m, .ok .endStream) ∈ c.receiving.watch.2

/-- A conversation with a provider, an interceptor and a server. -/
structure Converses (ask : Source π α) (provider : π) (c : Bidi π (ι × Record β) α β σ) :
    Prop where
  /-- The messages of the provider are handed over. -/
  sending : c.sending.Conveys ask provider
  /-- The server sends nothing after the end. -/
  serving : c.serving.Orderly
  /-- The receiving loop hears what has been delivered. -/
  listens : c.receiving.Listens c.serving.answer.passed
    (c.stopped = true ∨ c.sending.failed = true)
  /-- The sending loop is told to end. -/
  ended : c.TellsToEnd → c.sending.ended = true

namespace Converses

theorem start (watch : ι) (state : σ) :
    Converses ask provider
      ({ sending := { provider }, serving := { state := some state },
         receiving := { watch := (watch, []) } } : Bidi π (ι × Record β) α β σ) where
  sending := .start
  serving := .start state
  listens := .start watch
  ended htells := by
    rcases htells with hstopped | hresult | ⟨m, hmem⟩
    · cases hstopped
    · cases hresult
    · cases hmem

theorem of_sending (h : Converses ask provider c) {sending : Sending π α}
    (hconveys : sending.Conveys ask provider) (hended : c.sending.ended → sending.ended)
    (hfailed : c.sending.failed → sending.failed) :
    Converses ask provider { c with sending } :=
  ⟨hconveys, h.serving, h.listens.imp fun hgives ↦ hgives.imp_right hfailed,
    fun htells ↦ hended (h.ended htells)⟩

theorem of_tellToEnd (h : Converses ask provider c) :
    Converses ask provider { c with sending := c.sending.tellToEnd } :=
  h.of_sending h.sending.tellToEnd (fun _ ↦ rfl) fun hfailed ↦ hfailed

/-- The receiving loop changes; once it has ended, the sending loop is told so. -/
theorem of_settle {receiving : Receiving (ι × Record β) β}
    (hsending : c.sending.Conveys ask provider) (hserving : c.serving.Orderly)
    (hlistens : receiving.Listens c.serving.answer.passed
      (c.stopped = true ∨ c.sending.failed = true))
    (hended : c.stopped = true ∨ (∃ m, (.ok m, .ok .endStream) ∈ receiving.watch.2) →
      c.sending.ended = true) :
    Converses ask provider (c.settle receiving) := by
  rw [settle]
  split
  · rename_i hnone
    refine ⟨hsending, hserving, hlistens, fun htells ↦ ?_⟩
    rcases htells with hstopped | hresult | hverdict
    · exact hended (.inl hstopped)
    · rw [Option.isNone_iff_eq_none] at hnone
      rw [hnone] at hresult
      cases hresult
    · exact hended (.inr hverdict)
  · exact ⟨hsending.tellToEnd, hserving, hlistens, fun _ ↦ rfl⟩

theorem receive (h : Converses ask provider c) (hnone : c.receiving.result? = none)
    {a : Arrival β} {serving : Serving β σ} (hdeliver : c.serving.deliver = some (a, serving)) :
    Converses ask provider ({ c with serving }.receive intercept.recorded a) := by
  obtain ⟨horderly, hpassed⟩ := h.serving.deliver hdeliver
  have hlistens : Receiving.Listens (c.serving.answer.passed ++ [a]) _
      (c.receiving.arrive intercept.recorded a).2 := h.listens.arrive hnone a
  rw [← hpassed] at hlistens
  rw [Bidi.receive]
  dsimp only
  split
  · exact of_settle h.sending.tellToEnd horderly hlistens fun _ ↦ rfl
  · rename_i hverdict
    refine of_settle h.sending horderly hlistens fun htells ↦ ?_
    rcases htells with hstopped | ⟨m, hmem⟩
    · exact h.ended (.inl hstopped)
    · exact h.ended (.inr (.inr ⟨m, (Receiving.verdict_of_mem hmem).resolve_right hverdict⟩))

end Converses

theorem step_receive {intercept : Interceptor ι β} {c c' : Bidi π ι α β σ}
    (hs : step ask intercept limits process .receive c = some c') :
    c.receiving.result? = none ∧ ∃ a serving, c.serving.deliver = some (a, serving) ∧
      c' = { c with serving }.receive intercept a := by
  rw [step_receive_eq, Option.ite_none_right_eq_some] at hs
  obtain ⟨htakes, hs⟩ := hs
  obtain ⟨⟨a, serving⟩, hdeliver, rfl⟩ := Option.map_eq_some_iff.1 hs
  exact ⟨Receiving.result?_eq_none_of_takes htakes, a, serving, hdeliver, rfl⟩

theorem not_failed_of_isSome {go : Option (Sending π α)}
    (hnone : c.sending.result?.isSome → go = none) {sending : Sending π α}
    (hgo : go = some sending) : c.sending.failed = false := by
  rw [Sending.failed]
  cases hresult : c.sending.result? with
  | none => rfl
  | some result =>
    rw [hnone (hresult ▸ rfl)] at hgo
    cases hgo

/-- **Step lemma.** Every step keeps the conversation. -/
theorem Converses.step (h : Converses ask provider c)
    (hs : Bidi.step ask intercept.recorded limits process e c = some c') :
    Converses ask provider c' := by
  cases e with
  | send =>
    obtain ⟨sending, hgo, rfl⟩ := Option.map_eq_some_iff.1 hs
    have hfailed := not_failed_of_isSome Sending.go_eq_none hgo
    exact h.of_sending (h.sending.go hgo)
      (fun hended ↦ (Sending.advances_of_go hgo).ended_eq ▸ hended)
      fun hfailed' ↦ absurd hfailed' (hfailed ▸ Bool.false_ne_true)
  | rest =>
    obtain ⟨sending, hrest, rfl⟩ := Option.map_eq_some_iff.1 hs
    have hfailed := not_failed_of_isSome Sending.rest_eq_none hrest
    exact h.of_sending (h.sending.rest hrest)
      (fun hended ↦ (Sending.advances_of_rest hrest).ended_eq ▸ hended)
      fun hfailed' ↦ absurd hfailed' (hfailed ▸ Bool.false_ne_true)
  | take =>
    obtain ⟨sending, htake, rfl⟩ := Option.map_eq_some_iff.1 hs
    refine h.of_sending (h.sending.take htake)
      (fun hended ↦ (Sending.advances_of_take htake).ended_eq ▸ hended) fun hfailed ↦ ?_
    rw [Sending.take] at htake
    split at htake
    · cases htake
    · obtain ⟨m, -, rfl⟩ := Option.map_eq_some_iff.1 htake
      exact hfailed
  | close =>
    rw [Bidi.step] at hs
    split at hs
    · obtain rfl := Option.some.inj hs
      exact h.of_sending h.sending.close (fun hended ↦ hended) fun hfailed ↦ hfailed
    · cases hs
  | serve =>
    obtain ⟨serving, hserve, rfl⟩ := Option.map_eq_some_iff.1 hs
    have hserves := Serving.serves_of_step hserve
    have hpassed := (Serving.grows_of_serves hserves).passed_eq h.serving.taken_le
    have hlistens := h.listens
    rw [← hpassed] at hlistens
    exact ⟨h.sending, h.serving.serves hserves, hlistens, h.ended⟩
  | receive =>
    obtain ⟨hnone, a, serving, hdeliver, rfl⟩ := step_receive hs
    exact h.receive hnone hdeliver
  | quit =>
    rw [Bidi.step] at hs
    split at hs
    · rename_i hquit
      obtain rfl := Option.some.inj hs
      rw [Bool.and_eq_true, Option.isNone_iff_eq_none, abandons, Bool.or_eq_true_iff] at hquit
      refine of_settle h.sending h.serving (h.listens.quit hquit.2 hquit.1) fun htells ↦ ?_
      exact h.ended (htells.imp_right .inr)
    · cases hs
  | expire =>
    rw [Bidi.step] at hs
    split at hs
    · obtain rfl := Option.some.inj hs
      exact h.of_tellToEnd
    · cases hs
  | stop =>
    rw [Bidi.step] at hs
    split at hs
    · obtain rfl := Option.some.inj hs
      have h' := h.of_tellToEnd
      exact ⟨h'.sending, h'.serving, h'.listens.imp fun hgives ↦ .inl rfl, fun _ ↦ rfl⟩
    · cases hs

/-! ## After the sending loop has been told to end -/

section Ending

variable {intercept : Interceptor ι β} {c c' : Bidi π ι α β σ}

@[simp] theorem serving_settle (c : Bidi π ι α β σ) (receiving : Receiving ι β) :
    (c.settle receiving).serving = c.serving := by
  rw [settle]
  split <;> rfl

@[simp] theorem serving_receive (c : Bidi π ι α β σ) (a : Arrival β) :
    (c.receive intercept a).serving = c.serving := by
  rw [receive, serving_settle]
  split <;> rfl

theorem rests_settle (h : c.sending.ended = true) (receiving : Receiving ι β) :
    Sending.Rests c.sending (c.settle receiving).sending := by
  rw [settle]
  split
  · exact .refl h
  · exact .tellToEnd _

theorem rests_receive (h : c.sending.ended = true) (a : Arrival β) :
    Sending.Rests c.sending (c.receive intercept a).sending := by
  rw [receive]
  dsimp only
  split
  · exact (Sending.Rests.tellToEnd c.sending).trans
      (rests_settle (c := { c with sending := c.sending.tellToEnd }) rfl _)
  · exact rests_settle h _

/-- Every step leaves a sending loop alone that has been told to end, but for its last turn. -/
theorem rests_step (h : c.sending.ended = true)
    (hs : step ask intercept limits process e c = some c') :
    Sending.Rests c.sending c'.sending ∧ (e = .send → c'.sending.result?.isSome) := by
  cases e with
  | send =>
    obtain ⟨sending, hgo, rfl⟩ := Option.map_eq_some_iff.1 hs
    obtain ⟨hrests, hresult⟩ := Sending.Rests.go h hgo
    exact ⟨hrests, fun _ ↦ Option.isSome_of_eq_some hresult⟩
  | rest =>
    obtain ⟨sending, hrest, rfl⟩ := Option.map_eq_some_iff.1 hs
    exact ⟨.rest h hrest, nofun⟩
  | take =>
    obtain ⟨sending, htake, rfl⟩ := Option.map_eq_some_iff.1 hs
    exact ⟨.take h htake, nofun⟩
  | close =>
    rw [step, Option.ite_none_right_eq_some] at hs
    obtain ⟨-, hsome⟩ := hs
    obtain rfl := Option.some.inj hsome
    exact ⟨.close h, nofun⟩
  | serve =>
    obtain ⟨serving, -, rfl⟩ := Option.map_eq_some_iff.1 hs
    exact ⟨.refl h, nofun⟩
  | receive =>
    obtain ⟨-, a, serving, -, rfl⟩ := step_receive hs
    exact ⟨rests_receive (c := { c with serving }) h a, nofun⟩
  | quit =>
    rw [step, Option.ite_none_right_eq_some] at hs
    obtain ⟨-, hsome⟩ := hs
    obtain rfl := Option.some.inj hsome
    exact ⟨rests_settle h _, nofun⟩
  | expire =>
    rw [step, Option.ite_none_right_eq_some] at hs
    obtain ⟨-, hsome⟩ := hs
    obtain rfl := Option.some.inj hsome
    exact ⟨.tellToEnd _, nofun⟩
  | stop =>
    rw [step, Option.ite_none_right_eq_some] at hs
    obtain ⟨-, hsome⟩ := hs
    obtain rfl := Option.some.inj hsome
    exact ⟨.tellToEnd _, nofun⟩

/-- **Run lemma.** A sending loop that has been told to end rests, and once it has had a turn it has
ended. -/
theorem rests_runSchedule (later : List Step) (c : Bidi π ι α β σ) (h : c.sending.ended = true) :
    Sending.Rests c.sending (runSchedule (step ask intercept limits process) later c).sending ∧
      (.send ∈ later →
        (runSchedule (step ask intercept limits process) later c).sending.result?.isSome) := by
  induction later generalizing c with
  | nil => exact ⟨.refl h, fun hmem ↦ absurd hmem List.not_mem_nil⟩
  | cons e later ih =>
    rw [runSchedule_cons]
    cases hs : step ask intercept limits process e c with
    | none =>
      obtain ⟨hrests, hturn⟩ := ih c h
      refine ⟨hrests, fun hmem ↦ ?_⟩
      rcases List.mem_cons.1 hmem with rfl | hmem
      · -- The loop has no turn because it has ended already.
        refine hrests.isSome_result ?_
        rw [step, Option.map_eq_none_iff] at hs
        cases hresult : c.sending.result? with
        | some result => rfl
        | none =>
          have hgo : (c.sending.go ask limits).isSome := Sending.Rests.isSome_go h hresult
          rw [hs] at hgo
          cases hgo
      · exact hturn hmem
    | some c' =>
      obtain ⟨hfirst, hsend⟩ := rests_step h hs
      obtain ⟨hrests, hturn⟩ := ih c' hfirst.ended
      refine ⟨hfirst.trans hrests, fun hmem ↦ ?_⟩
      rcases List.mem_cons.1 hmem with rfl | hmem
      · exact hrests.isSome_result (hsend rfl)
      · exact hturn hmem

theorem ended_of_expire (hduration : limits.duration.isSome) {schedule : List Step}
    (hmem : .expire ∈ schedule) (c : Bidi π ι α β σ) :
    (runSchedule (step ask intercept limits process) schedule c).sending.ended = true := by
  obtain ⟨before, later, rfl⟩ := List.append_of_mem hmem
  rw [runSchedule_append, runSchedule_cons, step, if_pos hduration]
  exact (rests_runSchedule later _ rfl).1.ended

/-- A receiving loop that has not ended receives what there is, unless the call has been stopped or
its provider has failed. -/
theorem exists_step_receive (hnone : c.receiving.result? = none) (hgoes : c.abandons = false)
    {a : Arrival β} (hnext : c.serving.answer.next? = some a) :
    ∃ c', step ask intercept limits process .receive c = some c' ∧
      c'.serving.answer.passed = c.serving.answer.passed ++ [a] := by
  have hdeliver : c.serving.deliver =
      some (a, { c.serving with answer := c.serving.answer.take }) := by
    rw [Serving.deliver, hnext]
    rfl
  refine ⟨{ c with serving := { c.serving with answer := c.serving.answer.take } }.receive
    intercept a, ?_, ?_⟩
  · have htakes : c.receiving.takes c.abandons = true := by
      rw [hgoes, Receiving.takes_eq_isNone, hnone, Option.isNone_none]
    rw [step_receive_eq, if_pos htakes, hdeliver, Option.map_some]
  · rw [serving_receive]
    exact Pipe.passed_take hnext

end Ending

/-! ## Every schedule -/

/-- **Run lemma.** Under every schedule the call is a conversation. -/
theorem converses_run (provider : π) (watch : ι) (start : σ) (schedule : List Step) :
    Converses ask provider
      (run ask intercept.recorded limits process provider (watch, []) start schedule) :=
  runSchedule_induction (fun _ _ _ hs h ↦ h.step hs) schedule (.start watch start)

/-- What is reported has been received in full, and shown. -/
theorem Converses.reported (h : Converses ask provider c) {outcome : Session.Outcome β}
    (hresult : c.result? = some (.ok outcome)) :
    (∃ faults : List Status, faults.length ≤ 1 ∧ c.receiving.watch.2.map Prod.fst =
        (messagesOf c.serving.answer.passed).map .ok ++ faults.map .error) ∧
      outcome.received = (messagesOf c.serving.answer.passed).length ∧
      outcome.response = (messagesOf c.serving.answer.passed).getLast? := by
  rw [result?] at hresult
  split at hresult
  · cases hresult
  · cases hresult
  · rename_i hreceived
    obtain rfl := Except.ok.inj (Option.some.inj hresult)
    obtain ⟨⟨faults, hfaults, hcounts⟩ | ⟨m, -, hbad⟩, -⟩ := h.listens.finished hreceived
    · exact ⟨⟨faults, hfaults, hcounts.shown_eq⟩, hcounts.received_eq, hcounts.last_eq⟩
    · cases hbad
  · cases hresult

/-- The receiving loop has ended for a reason of its own, or because it has given up. -/
theorem Converses.ends (h : Converses ask provider c) {result : Except Error Unit}
    (hresult : c.receiving.result? = some result) :
    (c.stopped = true ∨ c.sending.failed = true) ∨
      Receiving.Ends c.serving.answer.passed c.receiving.watch.2 result :=
  (h.listens.finished hresult).2.imp_left And.left

/-- Under every schedule, with every provider, interceptor and server:

* the call is the call without the record;
* the transport takes a beginning of what the provider gives, each message once and in order;
* a report comes with all messages shown once and in order, perhaps with a status after them, counts
  them and holds the last of them;
* the receiving loop ends because the call is stopped, because the provider fails, or for its own
  reasons; after the end of the call it has received everything, and until it ends it receives
  what there is, whatever the sending loop has been told;
* a stop, the end of the receiving loop, a verdict of the interceptor and the end of the time tell
  the sending loop to end, and from then on nothing is handed over and its next turn is the last. -/
theorem run_conversation (ask : Source π α) (intercept : Interceptor ι β) (limits : Limits)
    (process : Process α β σ) (provider : π) (watch : ι) (start : σ) (schedule : List Step) :
    let after := run ask intercept.recorded limits process provider (watch, []) start
    let c := after schedule
    let heard := c.serving.answer.passed
    let record := c.receiving.watch.2
    c.forget = run ask intercept limits process provider watch start schedule ∧
    (∃ n, c.sending.channel.passed <+: supplied ask n provider) ∧
    (∀ outcome, c.result? = some (.ok outcome) →
      (∃ faults : List Status, faults.length ≤ 1 ∧
        record.map Prod.fst = (messagesOf heard).map .ok ++ faults.map .error) ∧
      outcome.received = (messagesOf heard).length ∧
      outcome.response = (messagesOf heard).getLast?) ∧
    ((∀ result, c.receiving.result? = some result →
        (c.stopped = true ∨ c.sending.failed = true) ∨ Receiving.Ends heard record result) ∧
      (∀ fault, .ended fault ∈ heard → heard = c.serving.answer.written) ∧
      (∀ a, c.receiving.result? = none → c.stopped = false → c.sending.failed = false →
        c.serving.answer.next? = some a →
        (after (schedule ++ [.receive])).serving.answer.passed = heard ++ [a])) ∧
    ((c.stopped = true ∨ c.receiving.result?.isSome ∨ (∃ m, (.ok m, .ok .endStream) ∈ record) ∨
        (limits.duration.isSome ∧ .expire ∈ schedule) → c.sending.ended = true) ∧
      (c.sending.ended = true → ∀ later,
        Sending.Rests c.sending (after (schedule ++ later)).sending ∧
        (.send ∈ later → (after (schedule ++ later)).sending.result?.isSome))) := by
  intro after c heard record
  have h : Converses ask provider c := converses_run provider watch start schedule
  have hafter (later : List Step) : after (schedule ++ later) =
      runSchedule (step ask intercept.recorded limits process) later c := runSchedule_append ..
  refine ⟨run_recorded provider watch start schedule, ?conveyed, fun outcome ↦ h.reported,
    ⟨fun result ↦ h.ends, fun fault ↦ h.serving.passed_eq_of_ended, ?received⟩, ?told, ?rests⟩
  case conveyed =>
    obtain ⟨n, hn⟩ := h.sending.exists_supplied
    exact ⟨n, (Pipe.passed_prefix _).trans hn⟩
  case received =>
    intro a hnone hstopped hfailed hnext
    have hgoes : c.abandons = false := by rw [abandons, hstopped, hfailed, Bool.or_false]
    obtain ⟨c', hs, hpassed⟩ : ∃ c', step ask intercept.recorded limits process .receive
        c = some c' ∧ c'.serving.answer.passed = c.serving.answer.passed ++ [a] :=
      exists_step_receive hnone hgoes hnext
    rw [hafter, runSchedule_cons, runSchedule_nil, hs]
    exact hpassed
  case told =>
    intro htells
    rcases htells with hstopped | hresult | hverdict | ⟨hduration, hexpire⟩
    · exact h.ended (.inl hstopped)
    · exact h.ended (.inr (.inl hresult))
    · exact h.ended (.inr (.inr hverdict))
    · exact ended_of_expire hduration hexpire _
  case rests =>
    intro hended later
    rw [hafter]
    exact rests_runSchedule later c hended

/-- The interceptor takes the first message for the end. Both messages are received, it is shown
both, and the second message of the provider stays where it was. -/
theorem run_conversation_ended_early :
    let c := run fromList (fun (watch : Unit) _ ↦ (.ok .endStream, watch)) { interval := some 5 }
      (fun (turn : Nat) ↦
        match turn with
        | 0 => .greet [] 1
        | 1 => .write "first" 2
        | 2 => .write "second" 3
        | _ => .finish none)
      ["Ada", "Grace"] () 0 [.send, .send, .serve, .serve, .receive, .receive, .rest, .send,
        .serve, .receive, .serve, .receive, .send]
    ∃ outcome, c.result? = some (.ok outcome) ∧ outcome.sent = 1 ∧ outcome.received = 2 ∧
      outcome.response = some "second" ∧ c.sending.provider = ["Grace"] := by
  obtain ⟨hforget, -, hreported, -⟩ := run_conversation fromList
    (fun (watch : Unit) _ ↦ (.ok .endStream, watch)) { interval := some 5 }
    (fun (turn : Nat) ↦
      match turn with
      | 0 => .greet [] 1
      | 1 => .write "first" 2
      | 2 => .write "second" 3
      | _ => .finish none)
    ["Ada", "Grace"] () 0 [.send, .send, .serve, .serve, .receive, .receive, .rest, .send,
      .serve, .receive, .serve, .receive, .send]
  rw [← hforget]
  obtain ⟨-, hreceived, hresponse⟩ := hreported _ rfl
  exact ⟨_, rfl, rfl, hreceived, hresponse, rfl⟩

end Bidi

end CallCheck.Worker

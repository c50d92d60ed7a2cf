import CallCheck.Proofs.Worker.Replies
import CallCheck.Proofs.Worker.Sides
import CallCheck.Proofs.Worker.Stopping

/-!
# What comes of a call with two sides

Both sides of a call can fail, at any time and in any order. An error of the provider comes first,
whatever has arrived; then comes what the receiving side has failed with; otherwise there is a
report. What the receiving side has failed with is told by what has been delivered and by the record
of the interceptor (`Receiving.Fails`), and a single reply by what has been delivered
(`Reply.Gives`).

## Main statement

* `outcomes_of_calls`: the order of precedence for calls with a stream of replies and for calls with
  one reply, under every schedule.
-/

namespace CallCheck.Worker

open Call (Error Limits Status)
open Session (Outcome)

variable {π ι α β σ : Type}

/-! ## The provider -/

/-- A provider that has ever failed has done so at last, and the loop has failed with it. -/
theorem Sending.Asks.result_eq_error_iff_mem {ask : Source π α} {limits : Limits} {provider : π}
    {s : Sending (π × Log α) α} (h : s.Asks ask limits provider) (e : Error) :
    s.result? = some (.error e) ↔ .error e ∈ s.provider.2 := by
  rw [h.result_eq_error_iff]
  constructor
  · exact List.mem_of_getLast?
  · intro hmem
    rcases List.eq_nil_or_concat s.provider.2 with hnil | ⟨front, last, heq⟩
    · rw [hnil] at hmem
      cases hmem
    rw [List.concat_eq_append] at heq
    rw [heq, List.getLast?_concat]
    rw [heq] at hmem
    -- Every answer but the last is a message, so the failure is the last.
    rcases List.mem_append.1 hmem with hfront | hlast
    · have hdrop : .error e ∈ s.provider.2.dropLast := by
        rw [heq, List.dropLast_concat]
        exact hfront
      obtain ⟨m, hm⟩ := h.exists_message_of_mem_dropLast hdrop
      cases hm
    · rw [List.mem_singleton.1 hlast]

theorem Sending.Asks.error_mem_iff {ask : Source π α} {limits : Limits} {provider : π}
    {s : Sending (π × Log α) α} (h : s.Asks ask limits provider) {result : Except Error Unit}
    (hresult : s.result? = some result) (e : Error) :
    .error e ∈ s.provider.2 ↔ result = .error e := by
  rw [← h.result_eq_error_iff_mem, hresult]
  exact Option.some_inj

theorem TwoSided.asks {S : Type} {ask : Source π α} {limits : Limits} {provider : π}
    {step : Step → S → Option S} {sending : S → Sending (π × Log α) α} {isDone : S → Bool} {s : S}
    (h : TwoSided ask.recorded limits step sending isDone)
    (hstart : sending s = { provider := (provider, []) }) (schedule : List Step) :
    (sending (runSchedule step schedule s)).Asks ask limits provider := by
  obtain ⟨turns, hturns⟩ := h.exists_turns schedule s
  rw [hturns, hstart]
  exact .run turns

/-! ## What comes first -/

/-- What comes of a call, by the log of its provider and by what the receiving side fails with. -/
structure Precedence (log : Log α) (Fails : Error → Prop) (result : Except Error (Outcome β)) :
    Prop where
  /-- An error of the provider comes first. -/
  provider : ∀ e, .error e ∈ log → result = .error e
  /-- An error of the receiving side comes next. -/
  receiver : (∀ e, .error e ∉ log) → ∀ e, Fails e → result = .error e
  /-- Otherwise there is a report. -/
  report : (∀ e, .error e ∉ log) → (∀ e, ¬Fails e) → ∃ outcome, result = .ok outcome

namespace Precedence

variable {log : Log α} {Fails : Error → Prop} {e : Error}

theorem of_provider (h : ∀ e', .error e' ∈ log ↔ e' = e) :
    Precedence log Fails (.error e : Except Error (Outcome β)) where
  provider e' hmem := congrArg Except.error ((h e').1 hmem).symm
  receiver hnone := absurd ((h e).2 rfl) (hnone e)
  report hnone := absurd ((h e).2 rfl) (hnone e)

theorem of_receiver (hlog : ∀ e, .error e ∉ log) (h : ∀ e', Fails e' ↔ e' = e) :
    Precedence log Fails (.error e : Except Error (Outcome β)) where
  provider e' hmem := absurd hmem (hlog e')
  receiver _ e' hfails := congrArg Except.error ((h e').1 hfails).symm
  report _ hnone := absurd ((h e).2 rfl) (hnone e)

theorem of_report (hlog : ∀ e, .error e ∉ log) (h : ∀ e, ¬Fails e) (outcome : Outcome β) :
    Precedence log Fails (.ok outcome) where
  provider e hmem := absurd hmem (hlog e)
  receiver _ e hfails := absurd hfails (h e)
  report _ _ := ⟨outcome, rfl⟩

end Precedence

/-! ## Calls with a stream of replies -/

namespace Bidi

variable {ask : Source π α} {intercept : Interceptor ι β} {limits : Limits}
  {process : Process α β σ} {provider : π}

/-- The receiving loop of a call fails with what makes it fail. -/
structure Judges (c : Bidi π (ι × Record β) α β σ) : Prop where
  /-- The server sends nothing after the end. -/
  orderly : c.serving.Orderly
  /-- The loop has heard what has been delivered. -/
  judged : c.receiving.Judged c.serving.answer.passed

theorem receiving_settle (c : Bidi π ι α β σ) (r : Receiving ι β) :
    (c.settle r).receiving = r := by
  rw [settle]
  split <;> rfl

theorem receiving_receive (c : Bidi π ι α β σ) (a : Arrival β) :
    (c.receive intercept a).receiving = (c.receiving.arrive intercept a).2 := by
  rw [receive]
  exact receiving_settle _ _

/-- **Step lemma.** -/
theorem Judges.step {e : Step} {c c' : Bidi π (ι × Record β) α β σ} (h : Judges c)
    (hs : Bidi.step ask intercept.recorded limits process e c = some c') : Judges c' := by
  cases proceeds_of_step hs with
  | turns => exact ⟨h.orderly, h.judged⟩
  | stop => exact ⟨h.orderly, h.judged⟩
  | serve hserve =>
    have hserves := Serving.serves_of_step hserve
    refine ⟨h.orderly.serves hserves, ?_⟩
    have hpassed := (Serving.grows_of_serves hserves).passed_eq h.orderly.taken_le
    exact hpassed ▸ h.judged
  | @receive a serving hnone hdeliver =>
    obtain ⟨horderly, hpassed⟩ := h.orderly.deliver hdeliver
    have hjudged : Receiving.Judged (c.serving.answer.passed ++ [a])
        (c.receiving.arrive intercept.recorded a).2 := h.judged.arrive hnone a
    constructor
    · rw [serving_receive]
      exact horderly
    · rw [serving_receive, receiving_receive]
      dsimp only
      rw [hpassed]
      exact hjudged
  | quit hnone =>
    constructor
    · rw [serving_settle]
      exact h.orderly
    · rw [serving_settle, receiving_settle]
      exact h.judged.quit hnone

/-- **Run lemma.** -/
theorem judges_run (provider : π) (watch : ι) (start : σ) (schedule : List Step) :
    Judges (run ask intercept.recorded limits process provider (watch, []) start schedule) :=
  runSchedule_induction (fun _ _ _ hs h ↦ h.step hs) schedule ⟨.start start, rfl, rfl⟩

/-- What comes first of what can come of a call. -/
theorem precedence {c : Bidi (π × Log α) (ι × Record β) α β σ}
    (hasks : c.sending.Asks ask limits provider) (hjudges : Judges c)
    {result : Except Error (Outcome β)} (hresult : c.result? = some result) :
    Precedence c.sending.provider.2
      (Receiving.Fails c.serving.answer.passed c.receiving.watch.2) result := by
  have hfails {received : Except Error Unit} (hreceiving : c.receiving.result? = some received)
      (e : Error) : Receiving.Fails c.serving.answer.passed c.receiving.watch.2 e ↔
        received = .error e := by
    rw [← Option.some_inj, ← hreceiving, hjudges.judged.result_iff]
    exact (and_iff_right (Option.isSome_of_eq_some hreceiving)).symm
  rw [result?] at hresult
  split at hresult
  · rename_i e received hsending hreceiving
    obtain rfl := Option.some.inj hresult
    apply Precedence.of_provider
    intro e'
    rw [hasks.error_mem_iff hsending, Except.error.injEq, eq_comm]
  · rename_i e hsending hreceiving
    obtain rfl := Option.some.inj hresult
    apply Precedence.of_receiver
    · intro e' hmem
      cases (hasks.error_mem_iff hsending e').1 hmem
    · intro e'
      rw [hfails hreceiving, Except.error.injEq, eq_comm]
  · rename_i hsending hreceiving
    obtain rfl := Option.some.inj hresult
    apply Precedence.of_report
    · intro e hmem
      cases (hasks.error_mem_iff hsending e).1 hmem
    · intro e hfail
      cases (hfails hreceiving e).1 hfail
  · cases hresult

theorem result?_of_error {c : Bidi π ι α β σ} {e : Error}
    (hsending : c.sending.result? = some (.error e)) (hreceiving : c.receiving.result?.isSome) :
    c.result? = some (.error e) := by
  obtain ⟨received, hreceived⟩ := Option.isSome_iff_exists.1 hreceiving
  rw [result?, hsending, hreceived]

theorem isSome_result? {c : Bidi π ι α β σ} (hsending : c.sending.result?.isSome)
    (hreceiving : c.receiving.result?.isSome) : c.result?.isSome := by
  obtain ⟨sent, hsent⟩ := Option.isSome_iff_exists.1 hsending
  obtain ⟨received, hreceived⟩ := Option.isSome_iff_exists.1 hreceiving
  rw [result?, hsent, hreceived]
  cases sent with
  | error e => rfl
  | ok => cases received <;> rfl

end Bidi

/-! ## Calls with one reply -/

/-- The server of one call goes on, or something that it has sent is delivered. -/
inductive Serving.Goes (process : Process α β σ) (s : Serving β σ) : Serving β σ → Prop
  | serve {request : List α} {whole : Bool} {s' : Serving β σ} :
      s.step process request whole = some s' → Goes process s s'
  | deliver {a : Arrival β} {s' : Serving β σ} : s.deliver = some (a, s') → Goes process s s'

namespace ClientStream

variable {ask : Source π α} {limits : Limits} {process : Process α β σ} {provider : π}
  {start : σ}  {c c' : ClientStream π α β σ} {e : Step}

/-- A call with one reply. -/
structure Attends (process : Process α β σ) (start : σ) (c : ClientStream π α β σ) : Prop where
  /-- The call is one call. -/
  goes : Relation.ReflTransGen (Serving.Goes process) { state := some start } c.serving
  /-- The server sends nothing after the end. -/
  orderly : c.serving.Orderly
  /-- The reply is what has been delivered. -/
  awaits : c.reply.Awaits c.serving.answer.passed
  /-- The reply is given up only after a stop or a failure of the provider. -/
  abandoned : c.reply = .abandoned → c.stopped = true ∨ c.sending.failed = true

theorem Attends.of_settle {reply : Reply β} {serving : Serving β σ}
    (hgoes : Relation.ReflTransGen (Serving.Goes process) { state := some start } serving)
    (horderly : serving.Orderly) (hawaits : reply.Awaits serving.answer.passed)
    (habandoned : reply = .abandoned → c.stopped = true ∨ c.sending.failed = true) :
    Attends process start ({ c with serving }.settle reply) := by
  rw [settle]
  split
  · exact ⟨hgoes, horderly, hawaits, habandoned⟩
  · exact ⟨hgoes, horderly, hawaits, habandoned⟩

/-- **Step lemma.** -/
theorem Attends.step (h : Attends process start c)
    (hs : ClientStream.step ask limits process e c = some c') : Attends process start c' := by
  have hmoves := (twoSided ask limits process).moves e c c' hs
  cases proceeds_of_step hs with
  | turns turns =>
    -- A provider that has failed has failed for good.
    exact ⟨h.goes, h.orderly, h.awaits, fun hr ↦ (h.abandoned hr).imp_right hmoves.failed⟩
  | serve hserve =>
    have hserves := Serving.serves_of_step hserve
    refine ⟨h.goes.tail (.serve hserve), h.orderly.serves hserves, ?_, h.abandoned⟩
    have hpassed := (Serving.grows_of_serves hserves).passed_eq h.orderly.taken_le
    exact hpassed ▸ h.awaits
  | @receive a serving hwaiting hdeliver =>
    obtain ⟨horderly, hpassed⟩ := h.orderly.deliver hdeliver
    refine .of_settle (h.goes.tail (.deliver hdeliver)) horderly ?_ fun hr ↦
      absurd hr (Reply.arrive_ne_abandoned hwaiting a)
    rw [hpassed]
    exact h.awaits.arrive hwaiting a
  | quit habandons hwaiting =>
    exact .of_settle h.goes h.orderly (fun given ↦ h.awaits.not_gives hwaiting) fun _ ↦ habandons
  | stop => exact ⟨h.goes, h.orderly, h.awaits, fun _ ↦ .inl rfl⟩

/-- **Run lemma.** -/
theorem attends_run (provider : π) (start : σ) (schedule : List Step) :
    Attends process start (run ask limits process provider start schedule) := by
  refine runSchedule_induction (fun _ _ _ hs h ↦ h.step hs) schedule
    ⟨.refl, .start start, ⟨rfl, rfl⟩, ?_⟩
  intro h
  cases h

/-- **Step lemma.** A reply that is not waited for any more is not read again. -/
theorem step_of_not_waiting (hwaiting : c.reply.isWaiting = false)
    (hs : ClientStream.step ask limits process e c = some c') :
    c'.reply = c.reply ∧ c'.serving.answer.taken = c.serving.answer.taken := by
  -- Only a delivery and giving up touch the reply, and they are for one that is waited for.
  cases proceeds_of_step hs with
  | turns => exact ⟨rfl, rfl⟩
  | stop => exact ⟨rfl, rfl⟩
  | serve hserve =>
    exact ⟨rfl, (Serving.grows_of_serves (Serving.serves_of_step hserve)).taken_eq⟩
  | receive hreceive =>
    rw [hwaiting] at hreceive
    cases hreceive
  | quit _ hquit =>
    rw [hwaiting] at hquit
    cases hquit

/-- **Run lemma.** -/
theorem runSchedule_of_not_waiting (hwaiting : c.reply.isWaiting = false) (later : List Step) :
    (runSchedule (ClientStream.step ask limits process) later c).reply = c.reply ∧
      (runSchedule (ClientStream.step ask limits process) later c).serving.answer.taken =
        c.serving.answer.taken := by
  refine runSchedule_induction
    (P := fun s : ClientStream π α β σ ↦
      s.reply = c.reply ∧ s.serving.answer.taken = c.serving.answer.taken)
    (fun e s s' hs h ↦ ?_) later ⟨rfl, rfl⟩
  have hstill : s.reply.isWaiting = false := by
    rw [h.1, hwaiting]
  obtain ⟨hreply, htaken⟩ := step_of_not_waiting hstill hs
  exact ⟨hreply.trans h.1, htaken.trans h.2⟩

theorem precedence {c : ClientStream (π × Log α) α β σ}
    (hasks : c.sending.Asks ask limits provider) (hattends : Attends process start c)
    {result : Except Error (Outcome β)} (hresult : c.result? = some result) :
    Precedence c.sending.provider.2
      (fun e ↦ ∃ status, Reply.Gives c.serving.answer.passed (.error status) ∧ e = .status status)
      result := by
  have hawaits := hattends.awaits
  rw [result?] at hresult
  split at hresult
  · cases hresult
  · cases hresult
  · rename_i e hsending hreply
    obtain rfl := Option.some.inj hresult
    apply Precedence.of_provider
    intro e'
    rw [hasks.error_mem_iff hsending, Except.error.injEq, eq_comm]
  all_goals
    rename_i hsending hreply
    have hlog (e : Error) : .error e ∉ c.sending.provider.2 := by
      intro hmem
      cases (hasks.error_mem_iff hsending e).1 hmem
    rw [hreply] at hawaits
    obtain rfl := Option.some.inj hresult
  -- The reply has been given up, is a status, or is a message.
  · apply Precedence.of_report hlog
    rintro e ⟨status, hgives, -⟩
    exact hawaits _ hgives
  · rename_i status
    apply Precedence.of_receiver hlog
    intro e'
    constructor
    · rintro ⟨status', hgives, rfl⟩
      rw [Except.error.inj ((hawaits _).1 hgives)]
    · intro he
      exact ⟨status, (hawaits _).2 rfl, he⟩
  · apply Precedence.of_report hlog
    rintro e ⟨status, hgives, -⟩
    cases (hawaits _).1 hgives

/-- A report is of what has been delivered, or there has been a stop. -/
theorem report_of_result {c : ClientStream π α β σ} (h : Attends process start c)
    {outcome : Outcome β} (hresult : c.result? = some (.ok outcome)) :
    (∃ m, Reply.Gives c.serving.answer.passed (.ok m) ∧ outcome.received = 1 ∧
        outcome.response = some m) ∨
      ((∀ given, ¬Reply.Gives c.serving.answer.passed given) ∧ c.stopped = true ∧
        outcome.received = 0 ∧ outcome.response = none) := by
  have hawaits := h.awaits
  rw [result?] at hresult
  split at hresult
  · cases hresult
  · cases hresult
  · cases hresult
  · rename_i hsending hreply
    obtain rfl := Except.ok.inj (Option.some.inj hresult)
    rw [hreply] at hawaits
    refine .inr ⟨hawaits, ?_, rfl, rfl⟩
    -- The provider has not failed, so there has been a stop.
    rcases h.abandoned hreply with hstopped | hfailed
    · exact hstopped
    · rw [Sending.failed, hsending] at hfailed
      cases hfailed
  · cases hresult
  · rename_i m headers hsending hreply
    obtain rfl := Except.ok.inj (Option.some.inj hresult)
    rw [hreply] at hawaits
    exact .inl ⟨m, (hawaits _).2 rfl, rfl, rfl⟩

theorem result?_of_error {c : ClientStream π α β σ} {e : Error}
    (hsending : c.sending.result? = some (.error e)) (hwaiting : c.reply.isWaiting = false) :
    c.result? = some (.error e) := by
  rw [result?, hsending]
  cases hr : c.reply with
  | waiting headers m =>
    rw [hr] at hwaiting
    cases hwaiting
  | _ => rfl

theorem isSome_result? {c : ClientStream π α β σ} (hsending : c.sending.result?.isSome)
    (hwaiting : c.reply.isWaiting = false) : c.result?.isSome := by
  obtain ⟨sent, hsent⟩ := Option.isSome_iff_exists.1 hsending
  cases sent with
  | error e => exact Option.isSome_of_eq_some (result?_of_error hsent hwaiting)
  | ok =>
    rw [result?, hsent]
    cases hr : c.reply with
    | waiting headers m =>
      rw [hr] at hwaiting
      cases hwaiting
    | _ => rfl

end ClientStream

/-! ## Both kinds of calls -/

/-- **What comes of a call with two sides.** Of calls with a stream of replies and of calls with one
reply, with any provider, any interceptor and any server, under every schedule:

* a call that has come to an end has come to the error of its provider, if the provider has ever
  failed; otherwise to what the receiving side has failed with; otherwise to a report;
* once the provider has failed, the receiving side needs one turn to give up, and once the receiving
  side has ended, the sending loop needs one turn to end, and then the call has come to its end.

A report of a call with one reply is of the reply, if that has been delivered; otherwise there has
been a stop, and the report is of none. The call is one call of the server, and a reply that is not
waited for is not read. -/
theorem outcomes_of_calls (ask : Source π α) (intercept : Interceptor ι β) (limits : Limits)
    (process : Process α β σ) (provider : π) (watch : ι) (start : σ) (schedule : List Step) :
    (let call := Bidi.run ask intercept limits process provider watch start
      let recorded :=
        Bidi.run ask.recorded intercept.recorded limits process (provider, []) (watch, []) start
          schedule
      let log := recorded.sending.provider.2
      let Fails := Receiving.Fails recorded.serving.answer.passed recorded.receiving.watch.2
      recorded.forgetLog.forget = call schedule ∧
        (∀ result, (call schedule).result? = some result → Precedence log Fails result) ∧
        (∀ e later, .error e ∈ log → .quit ∈ later →
          (call (schedule ++ later)).result? = some (.error e)) ∧
        ∀ later, (call schedule).receiving.result?.isSome → .send ∈ later →
          (call (schedule ++ later)).result?.isSome) ∧
    (let call := ClientStream.run ask limits process provider start
      let recorded := ClientStream.run ask.recorded limits process (provider, []) start schedule
      let log := recorded.sending.provider.2
      let Gives := Reply.Gives recorded.serving.answer.passed
      recorded.forgetLog = call schedule ∧
        (∀ result, (call schedule).result? = some result →
          Precedence log (fun e ↦ ∃ status, Gives (.error status) ∧ e = .status status) result) ∧
        (∀ outcome, (call schedule).result? = some (.ok outcome) →
          (∃ m, Gives (.ok m) ∧ outcome.received = 1 ∧ outcome.response = some m) ∨
            ((∀ given, ¬Gives given) ∧ .stop ∈ schedule ∧ outcome.received = 0 ∧
              outcome.response = none)) ∧
        (∀ e later, .error e ∈ log → .quit ∈ later →
          (call (schedule ++ later)).result? = some (.error e)) ∧
        (∀ later, (call schedule).reply.isWaiting = false → .send ∈ later →
          (call (schedule ++ later)).result?.isSome) ∧
        Relation.ReflTransGen (Serving.Goes process) { state := some start }
          (call schedule).serving ∧
        ∀ later, (call schedule).reply.isWaiting = false →
          (call (schedule ++ later)).reply = (call schedule).reply ∧
            (call (schedule ++ later)).serving.answer.taken =
              (call schedule).serving.answer.taken) := by
  constructor
  · intro call recorded log Fails
    have htwo := Bidi.twoSided ask intercept limits process
    have hasks : recorded.sending.Asks ask limits provider :=
      (Bidi.twoSided ask.recorded intercept.recorded limits process).asks rfl schedule
    have hforget : recorded.forgetLog.forget = call schedule := by
      rw [Bidi.forgetLog_run, Bidi.run_recorded]
    have hresult : recorded.result? = (call schedule).result? := congrArg Bidi.result? hforget
    have hsending : recorded.sending.result? = (call schedule).sending.result? :=
      congrArg (Bidi.sending · |>.result?) hforget
    refine ⟨hforget, ?precedence, ?quit, ?send⟩
    case precedence =>
      intro result h
      exact Bidi.precedence hasks (Bidi.judges_run ..) (hresult.trans h)
    case quit =>
      intro e later hlog hquit
      have herror : (call schedule).sending.result? = some (.error e) := by
        rw [← hsending, hasks.result_eq_error_iff_mem]
        exact hlog
      obtain ⟨hsent, hreceived⟩ := htwo.ends_of_quit hquit herror
      have happend : call (schedule ++ later) = _ := runSchedule_append ..
      rw [happend]
      exact Bidi.result?_of_error hsent hreceived
    case send =>
      intro later hdone hsend
      obtain ⟨hsent, hreceived⟩ := htwo.ends_of_send schedule hsend rfl hdone
      exact Bidi.isSome_result? hsent hreceived
  · intro call recorded log Gives
    have htwo := ClientStream.twoSided ask limits process
    have hasks : recorded.sending.Asks ask limits provider :=
      (ClientStream.twoSided ask.recorded limits process).asks rfl schedule
    have hattends : ClientStream.Attends process start recorded := ClientStream.attends_run ..
    have hforget : recorded.forgetLog = call schedule := ClientStream.forgetLog_run ..
    have hresult : recorded.result? = (call schedule).result? :=
      congrArg ClientStream.result? hforget
    have hsending : recorded.sending.result? = (call schedule).sending.result? :=
      congrArg (ClientStream.sending · |>.result?) hforget
    refine ⟨hforget, ?precedence, ?report, ?quit, ?send, ?goes, ?read⟩
    case precedence =>
      intro result h
      exact ClientStream.precedence hasks hattends (hresult.trans h)
    case report =>
      intro outcome h
      refine (ClientStream.report_of_result hattends (hresult.trans h)).imp_right ?_
      rintro ⟨hnone, hstopped, hreceived, hresponse⟩
      -- Only a stop of the schedule raises the flag.
      have hraised := ClientStream.raisedByStop ask.recorded limits process
      obtain ⟨before, after, heq, -⟩ := (hraised.run_iff_of_down rfl schedule).1 hstopped
      exact ⟨hnone, heq ▸ List.mem_append_right before List.mem_cons_self, hreceived, hresponse⟩
    case quit =>
      intro e later hlog hquit
      have herror : (call schedule).sending.result? = some (.error e) := by
        rw [← hsending, hasks.result_eq_error_iff_mem]
        exact hlog
      obtain ⟨hsent, hended⟩ := htwo.ends_of_quit hquit herror
      rw [Bool.not_eq_true'] at hended
      have happend : call (schedule ++ later) = _ := runSchedule_append ..
      rw [happend]
      exact ClientStream.result?_of_error hsent hended
    case send =>
      intro later hdone hsend
      have hread : (!(call schedule).reply.isWaiting) = true := by rw [hdone, Bool.not_false]
      obtain ⟨hsent, hended⟩ := htwo.ends_of_send schedule hsend rfl hread
      rw [Bool.not_eq_true'] at hended
      exact ClientStream.isSome_result? hsent hended
    case goes =>
      rw [← hforget]
      exact hattends.goes
    case read =>
      intro later hdone
      have happend : call (schedule ++ later) = _ := runSchedule_append ..
      rw [happend]
      exact ClientStream.runSchedule_of_not_waiting hdone later

/-- The reply arrives all the same after the provider has failed, and does not count. -/
example :
    let ask : Source Unit Nat := fun _ ↦ (.error .noData, ())
    let process : Process Nat Nat Nat := fun turn ↦
      if turn = 0 then .greet [] 1 else if turn = 1 then .write 7 2 else .finish none
    let schedule : List Step := [.send, .serve, .serve, .serve, .receive, .receive, .receive]
    let call := ClientStream.run ask {} process () 0 schedule
    call.reply = .received 7 [] ∧ call.result? = some (.error .noData) := by
  cbv

end CallCheck.Worker

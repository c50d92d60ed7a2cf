import CallCheck.Proofs.Worker.Exchange
import CallCheck.Proofs.Worker.Script
import CallCheck.Worker.Calling

/-!
# Calls as exchanges

A call that nobody stops, without an interceptor and without a bound on its time, is an exchange: a
call of each kind makes the same steps as the exchange of its parties. So what comes of it depends
only on the answer of the server to the messages that are enough.
-/

namespace CallCheck.Worker

open Call (Error Limits Status)
open Session (Outcome)

/-- A run comes to a result, whatever the order in which the parties go on: it comes to no other,
and if they go on for ever and fairly it comes to this one and stays with it. -/
def ComesTo {ρ : Type} (run : List Step → Bool × Option ρ) (result : ρ) : Prop :=
  (∀ schedule, .stop ∉ schedule →
      run schedule = (false, none) ∨ run schedule = (false, some result)) ∧
    ∀ schedule : Nat → Step, Fair schedule → (∀ n, schedule n ≠ .stop) →
      ∃ n, ∀ m, n ≤ m → run ((List.range m).map schedule) = (false, some result)

theorem ComesTo.imp {ρ τ : Type} {run : List Step → Bool × Option ρ} {result : ρ}
    {run' : List Step → Bool × Option τ} {result' : τ} (h : ComesTo run result)
    (hnone : ∀ schedule, run schedule = (false, none) → run' schedule = (false, none))
    (hsome : ∀ schedule, run schedule = (false, some result) →
      run' schedule = (false, some result')) :
    ComesTo run' result' := by
  refine ⟨fun schedule hstop ↦ ?_, fun schedule hfair hstop ↦ ?_⟩
  · exact (h.1 schedule hstop).imp (hnone schedule) (hsome schedule)
  · obtain ⟨n, hn⟩ := h.2 schedule hfair hstop
    exact ⟨n, fun m hm ↦ hsome _ (hn m hm)⟩

variable {α β σ : Type} {limits : Limits} {process : Process α β σ} {ms : List α}
  {out : List (Arrival β)} {k : Nat} {st : σ}

/-- A system comes to a result if it makes the steps of an exchange that ends with this result. -/
theorem comesTo_of_related {S R ρ : Type} {read : R → Arrival β → R} {isDone : R → Bool} {start : R}
    {s : S} {x : Exchange α β σ R} {result : ρ} (step : Step → S → Option S)
    (view : S → Bool × Option ρ) (Related : S → Exchange α β σ R → Prop)
    (keeps : ∀ e s x k, e ≠ .stop → Related s x →
      Exchange.Follows read isDone limits process ms out start k x →
      Related ((step e s).getD s) ((Exchange.step read isDone limits process e x).getD x))
    (hover : ∀ s x k, Related s x → Exchange.Follows read isDone limits process ms out start k x →
      Exchange.Over isDone x → view s = (false, some result))
    (hnot : ∀ s x k, Related s x → Exchange.Follows read isDone limits process ms out start k x →
      ¬ Exchange.Over isDone x → view s = (false, none))
    (hfinishes : Finishes read isDone start out)
    (h : Exchange.Follows read isDone limits process ms out start k x) (hrelated : Related s x) :
    ComesTo (fun schedule ↦ view (runSchedule step schedule s)) result := by
  let exchange := Exchange.step read isDone limits process
  -- The two run side by side by any schedule, and the exchange keeps its invariant.
  have hrun : ∀ schedule, .stop ∉ schedule → ∃ k,
      Related (runSchedule step schedule s) (runSchedule exchange schedule x) ∧
        Exchange.Follows read isDone limits process ms out start k
          (runSchedule exchange schedule x) := by
    intro schedule hstop
    refine runSchedule_related (P := fun s x ↦ ∃ k, Related s x ∧
      Exchange.Follows read isDone limits process ms out start k x) ?_ hstop ⟨k, hrelated, h⟩
    rintro e s x he ⟨k, hrelated, h⟩
    obtain ⟨k', h'⟩ := Exchange.follows_runSchedule hfinishes h [e]
    exact ⟨k', keeps e s x k he hrelated h, h'⟩
  refine ⟨fun schedule hstop ↦ ?_, fun schedule hfair hstop ↦ ?_⟩
  · obtain ⟨k, hrelated, h⟩ := hrun schedule hstop
    by_cases hend : Exchange.Over isDone (runSchedule exchange schedule x)
    · exact .inr (hover _ _ k hrelated h hend)
    · exact .inl (hnot _ _ k hrelated h hend)
  · obtain ⟨n, hn⟩ := Exchange.exists_over hfinishes h hfair
    refine ⟨n, fun m hm ↦ ?_⟩
    have hstop' : .stop ∉ (List.range m).map schedule := by
      intro hmem
      obtain ⟨i, -, hi⟩ := List.mem_map.1 hmem
      exact hstop i hi
    obtain ⟨k, hrelated, h⟩ := hrun _ hstop'
    exact hover _ _ k hrelated h (hn m hm)

/-! ## One message -/

/-- The sending side of a call with one message, which has been sent and taken. -/
def Sending.single (m : α) : Sending (List α) α :=
  { provider := [], phase := .finished (.ok ()), sent := 1, channel := ⟨[m], 1⟩ }

/-- The message has been sent and taken, and the loop has ended. -/
structure Sending.IsSingle (m : α) (s : Sending (List α) α) : Prop where
  phase_eq : s.phase = .finished (.ok ())
  sent_eq : s.sent = 1
  channel_eq : s.channel = ⟨[m], 1⟩

namespace Sending.IsSingle

variable {m : α} {s : Sending (List α) α}

theorem intro (m : α) : IsSingle m (single m) := ⟨rfl, rfl, rfl⟩

theorem isSome_result (h : IsSingle m s) : s.result?.isSome := by
  rw [result?, h.phase_eq]
  rfl

theorem take_eq_none (h : IsSingle m s) : s.take = none := by
  rw [take, h.channel_eq]
  split <;> rfl

theorem passed_eq (h : IsSingle m s) : s.channel.passed = [m] := by
  rw [h.channel_eq]
  rfl

theorem isWhole (h : IsSingle m s) : s.isWhole = true := by
  rw [Sending.isWhole, h.isSome_result, h.channel_eq]
  rfl

end Sending.IsSingle

/-- Of an exchange with one message only the server and the reader make steps; that no more messages
are taken, or that the sending side is told to end, is of no interest. -/
theorem Exchange.step_single {R : Type} {read : R → Arrival β → R} {isDone : R → Bool} {m : α}
    {x : Exchange α β σ R} {e : Step} (h : x.sending.IsSingle m)
    (hserve : e ≠ .serve) (hreceive : e ≠ .receive) :
    let x' := (Exchange.step read isDone limits process e x).getD x
    x'.sending.IsSingle m ∧ x'.serving = x.serving ∧ x'.reader = x.reader := by
  cases e with
  | send =>
    rw [Exchange.step, Sending.go_eq_none h.isSome_result]
    exact ⟨h, rfl, rfl⟩
  | rest =>
    rw [Exchange.step, Sending.rest_eq_none h.isSome_result]
    exact ⟨h, rfl, rfl⟩
  | take =>
    rw [Exchange.step, h.take_eq_none]
    exact ⟨h, rfl, rfl⟩
  | close =>
    rw [Exchange.step]
    split
    · exact ⟨⟨h.phase_eq, h.sent_eq, h.channel_eq⟩, rfl, rfl⟩
    · exact ⟨h, rfl, rfl⟩
  | serve => exact absurd rfl hserve
  | receive => exact absurd rfl hreceive
  | quit => exact ⟨h, rfl, rfl⟩
  | expire => exact ⟨h, rfl, rfl⟩
  | stop => exact ⟨h, rfl, rfl⟩

theorem Exchange.settle_single {R : Type} {m : α} (isDone : R → Bool) (x : Exchange α β σ R)
    (reader : R) (h : x.sending.IsSingle m) :
    (x.settle isDone reader).serving = x.serving ∧ (x.settle isDone reader).reader = reader ∧
      (x.settle isDone reader).sending.IsSingle m := by
  rw [settle]
  split
  · exact ⟨rfl, rfl, h.phase_eq, h.sent_eq, h.channel_eq⟩
  · exact ⟨rfl, rfl, h⟩

/-- What comes of a call with one reply once the reply is not waited for any more. -/
def Reply.result? (sent : Nat) : Reply β → Option (Except Error (Outcome β))
  | .received m headers => some (.ok { sent, received := 1, response := some m, headers })
  | .failed status => some (.error (.status status))
  | _ => none

/-- Whether a reply is not waited for any more. -/
def Reply.isDone (r : Reply β) : Bool := !r.isWaiting

/-- A call with one message and one reply makes the steps of an exchange. -/
structure Unary.IsExchange (m : α) (u : Unary β σ) (x : Exchange α β σ (Reply β)) : Prop where
  serving_eq : u.serving = x.serving
  reply_eq : u.reply = x.reader
  stopped_eq : u.stopped = false
  single : x.sending.IsSingle m

theorem Unary.IsExchange.idle {m : α} {u : Unary β σ} {x : Exchange α β σ (Reply β)}
    (h : u.IsExchange m x) {e : Step} (hserve : e ≠ .serve) (hreceive : e ≠ .receive) :
    u.IsExchange m ((Exchange.step Reply.arrive Reply.isDone limits process e x).getD x) := by
  obtain ⟨hsingle, hserving, hreader⟩ := Exchange.step_single h.single hserve hreceive
  exact ⟨h.serving_eq.trans hserving.symm, h.reply_eq.trans hreader.symm, h.stopped_eq, hsingle⟩

theorem Unary.IsExchange.step {m : α} {u : Unary β σ} {x : Exchange α β σ (Reply β)}
    (h : u.IsExchange m x) {e : Step} (he : e ≠ .stop) :
    IsExchange m ((Unary.step process m e u).getD u)
      ((Exchange.step Reply.arrive Reply.isDone limits process e x).getD x) := by
  have hidle (hserve : e ≠ .serve) (hreceive : e ≠ .receive) :
      u.IsExchange m ((Exchange.step Reply.arrive Reply.isDone limits process e x).getD x) :=
    h.idle hserve hreceive
  obtain ⟨serving, reply, stopped⟩ := u
  obtain ⟨sending, _, _⟩ := x
  obtain ⟨rfl, rfl, rfl, hsingle⟩ := h
  cases e with
  | serve =>
    rw [Unary.step, Exchange.step, hsingle.passed_eq, hsingle.isWhole]
    cases serving.step process [m] true with
    | none => exact ⟨rfl, rfl, rfl, hsingle⟩
    | some serving' => exact ⟨rfl, rfl, rfl, hsingle⟩
  | receive =>
    rw [Unary.step, Exchange.step, Reply.isDone]
    cases reply.isWaiting with
    | false => exact ⟨rfl, rfl, rfl, hsingle⟩
    | true =>
      cases serving.deliver with
      | none => exact ⟨rfl, rfl, rfl, hsingle⟩
      | some delivered =>
        obtain ⟨a, serving'⟩ := delivered
        obtain ⟨hserving', hreader', hsingle'⟩ := Exchange.settle_single
          Reply.isDone ⟨sending, serving', reply⟩ (reply.arrive a) hsingle
        exact ⟨hserving'.symm, hreader'.symm, rfl, hsingle'⟩
  | send => exact hidle (by decide) (by decide)
  | rest => exact hidle (by decide) (by decide)
  | take => exact hidle (by decide) (by decide)
  | close => exact hidle (by decide) (by decide)
  | quit => exact hidle (by decide) (by decide)
  | expire => exact hidle (by decide) (by decide)
  | stop => exact absurd rfl he

theorem Unary.comesTo {m : α} {result : Except Error (Outcome β)}
    (hanswers : Answers process k st [m] out)
    (hfinishes : Finishes Reply.arrive Reply.isDone (.waiting none none) out)
    (hresult : (out.foldl Reply.arrive (.waiting none none)).result? 1 = some result) :
    ComesTo (fun schedule ↦
      let u := Unary.run process m st schedule
      (u.stopped, u.result?)) result := by
  have hfollows : Exchange.Follows Reply.arrive Reply.isDone ({} : Limits) process [m] out
      (.waiting none none) k ⟨.single m, { state := some st }, .waiting none none⟩ :=
    Exchange.follows_start (Sending.Follows.single rfl rfl rfl) rfl rfl hanswers
  have hstart : Unary.IsExchange m ({ serving := { state := some st } } : Unary β σ)
      ⟨.single m, { state := some st }, .waiting none none⟩ := ⟨rfl, rfl, rfl, .intro m⟩
  refine comesTo_of_related (Unary.step process m) (fun u ↦ (u.stopped, u.result?))
    (fun u x ↦ u.IsExchange m x) ?_ ?_ ?_ hfinishes hfollows hstart
  · exact fun e u x k he hrelated _ ↦ hrelated.step he
  · intro u x k hrelated h hover
    rw [← (h.reader_eq_of_over hfinishes hover).1, ← hrelated.reply_eq] at hresult
    rw [hrelated.stopped_eq, Unary.result?]
    cases hreply : u.reply with
    | waiting headers m => rw [hreply] at hresult; cases hresult
    | abandoned => rw [hreply] at hresult; cases hresult
    | failed status => rw [hreply] at hresult; rw [← hresult]; rfl
    | received m headers => rw [hreply] at hresult; rw [← hresult]; rfl
  · intro u x k hrelated h hover
    have hwaiting : u.reply.isWaiting = true := by
      rw [hrelated.reply_eq]
      cases hw : x.reader.isWaiting with
      | true => rfl
      | false => exact absurd ⟨hrelated.single.isSome_result, by rw [Reply.isDone, hw]; rfl⟩ hover
    rw [hrelated.stopped_eq, Unary.result?]
    cases hreply : u.reply with
    | waiting headers m => rfl
    | _ => rw [hreply] at hwaiting; cases hwaiting

/-! ## One message and a stream of replies -/

/-- Whether a receiving loop has ended. -/
def Receiving.isDone {ι : Type} (r : Receiving ι β) : Bool := r.result?.isSome

/-- A call with one message and a stream of replies makes the steps of an exchange. -/
structure ServerStream.IsExchange (m : α) (c : ServerStream Unit β σ)
    (x : Exchange α β σ (Receiving Unit β)) : Prop where
  serving_eq : c.serving = x.serving
  receiving_eq : c.receiving = x.reader
  ended_eq : c.ended = false
  stopped_eq : c.stopped = false
  single : x.sending.IsSingle m

theorem ServerStream.IsExchange.idle {m : α} {c : ServerStream Unit β σ}
    {x : Exchange α β σ (Receiving Unit β)} (h : c.IsExchange m x) {other : Limits} {e : Step}
    (hserve : e ≠ .serve) (hreceive : e ≠ .receive) :
    c.IsExchange m
      ((Exchange.step (ServerStream.receive letPass limits) Receiving.isDone other process e x).getD
        x) := by
  obtain ⟨hsingle, hserving, hreader⟩ := Exchange.step_single h.single hserve hreceive
  exact ⟨h.serving_eq.trans hserving.symm, h.receiving_eq.trans hreader.symm, h.ended_eq,
    h.stopped_eq, hsingle⟩

theorem ServerStream.IsExchange.step {m : α} {c : ServerStream Unit β σ}
    {x : Exchange α β σ (Receiving Unit β)} (h : c.IsExchange m x) {other : Limits}
    (hduration : limits.duration = none) {e : Step} (he : e ≠ .stop) :
    IsExchange m ((ServerStream.step letPass limits process m e c).getD c)
      ((Exchange.step (ServerStream.receive letPass limits) Receiving.isDone other process e x).getD
        x) := by
  have hidle (hserve : e ≠ .serve) (hreceive : e ≠ .receive) : c.IsExchange m
      ((Exchange.step (ServerStream.receive letPass limits) Receiving.isDone other process e x).getD
        x) :=
    h.idle hserve hreceive
  obtain ⟨serving, receiving, ended, stopped⟩ := c
  obtain ⟨sending, _, _⟩ := x
  obtain ⟨rfl, rfl, rfl, rfl, hsingle⟩ := h
  cases e with
  | serve =>
    rw [ServerStream.step, Exchange.step, hsingle.passed_eq, hsingle.isWhole]
    cases serving.step process [m] true with
    | none => exact ⟨rfl, rfl, rfl, rfl, hsingle⟩
    | some serving' => exact ⟨rfl, rfl, rfl, rfl, hsingle⟩
  | receive =>
    rw [ServerStream.step_receive_eq, Receiving.takes_eq_isNone, Exchange.step, Receiving.isDone]
    dsimp only
    cases receiving.result? with
    | some result => exact ⟨rfl, rfl, rfl, rfl, hsingle⟩
    | none =>
      cases serving.deliver with
      | none => exact ⟨rfl, rfl, rfl, rfl, hsingle⟩
      | some delivered =>
        obtain ⟨a, serving'⟩ := delivered
        obtain ⟨hserving', hreader', hsingle'⟩ := Exchange.settle_single Receiving.isDone
          ⟨sending, serving', receiving⟩ (receive letPass limits receiving a) hsingle
        exact ⟨hserving'.symm, hreader'.symm, rfl, rfl, hsingle'⟩
  | send => exact hidle (by decide) (by decide)
  | rest => exact hidle (by decide) (by decide)
  | take => exact hidle (by decide) (by decide)
  | close => exact hidle (by decide) (by decide)
  | quit => exact hidle (by decide) (by decide)
  | expire =>
    rw [ServerStream.step, hduration]
    exact hidle (by decide) (by decide)
  | stop => exact absurd rfl he

/-- What a call has to show of which so many messages have been sent. -/
def Receiving.outcome {ι : Type} (sent : Nat) (r : Receiving ι β) : Outcome β :=
  { sent, received := r.received, response := r.last, headers := r.headers }

theorem ServerStream.comesTo {m : α} (hduration : limits.duration = none)
    (hanswers : Answers process k st [m] out)
    (hfinishes : Finishes (receive letPass limits) Receiving.isDone { watch := () } out)
    {r : Receiving Unit β} (hr : out.foldl (receive letPass limits) { watch := () } = r)
    {result : Except Error Unit} (hresult : r.result? = some result) :
    ComesTo (fun schedule ↦
      let c := ServerStream.run letPass limits process m () st schedule
      (c.stopped, c.result?)) (result.map fun () ↦ r.outcome 1) := by
  have hfollows : Exchange.Follows (receive letPass limits) Receiving.isDone ({} : Limits) process
      [m] out { watch := () } k ⟨.single m, { state := some st }, { watch := () }⟩ :=
    Exchange.follows_start (Sending.Follows.single rfl rfl rfl) rfl rfl hanswers
  have hstart : ServerStream.IsExchange m
      ({ serving := { state := some st }, receiving := { watch := () } } : ServerStream Unit β σ)
      ⟨.single m, { state := some st }, { watch := () }⟩ := ⟨rfl, rfl, rfl, rfl, .intro m⟩
  refine comesTo_of_related (ServerStream.step letPass limits process m)
    (fun c ↦ (c.stopped, c.result?)) (fun c x ↦ c.IsExchange m x) ?_ ?_ ?_ hfinishes hfollows hstart
  · exact fun e c x k he hrelated _ ↦ hrelated.step hduration he
  · intro c x k hrelated h hover
    have hreader := (h.reader_eq_of_over hfinishes hover).1
    rw [hr, ← hrelated.receiving_eq] at hreader
    rw [hrelated.stopped_eq, ServerStream.result?, hreader, hresult]
    rfl
  · intro c x k hrelated h hover
    have hnone : x.reader.result? = none := by
      rw [← Option.not_isSome_iff_eq_none]
      exact fun hsome ↦ hover ⟨hrelated.single.isSome_result, hsome⟩
    rw [hrelated.stopped_eq, ServerStream.result?, hrelated.receiving_eq, hnone]
    rfl

/-! ## A stream of messages and one reply -/

/-- A call with a stream of messages and one reply is an exchange until it is stopped. -/
structure ClientStream.IsExchange (c : ClientStream (List α) α β σ)
    (x : Exchange α β σ (Reply β)) : Prop where
  exchange_eq : x = ⟨c.sending, c.serving, c.reply⟩
  stopped_eq : c.stopped = false

theorem ClientStream.IsExchange.settle {c : ClientStream (List α) α β σ}
    {x : Exchange α β σ (Reply β)} (h : c.IsExchange x) (reply : Reply β) :
    (c.settle reply).IsExchange (x.settle Reply.isDone reply) := by
  obtain ⟨rfl, hstopped⟩ := h
  rw [ClientStream.settle, Exchange.settle, Reply.isDone]
  cases reply.isWaiting <;> exact ⟨rfl, hstopped⟩

theorem ClientStream.IsExchange.step {c : ClientStream (List α) α β σ}
    {x : Exchange α β σ (Reply β)} (h : c.IsExchange x) (hduration : limits.duration = none)
    (hfailed : c.sending.failed = false) {e : Step} (he : e ≠ .stop) :
    IsExchange ((ClientStream.step fromList limits process e c).getD c)
      ((Exchange.step Reply.arrive Reply.isDone limits process e x).getD x) := by
  obtain ⟨sending, serving, reply, stopped⟩ := c
  obtain ⟨rfl, rfl⟩ := h
  cases e with
  | send =>
    rw [ClientStream.step, Exchange.step]
    cases sending.go fromList limits <;> exact ⟨rfl, rfl⟩
  | rest =>
    rw [ClientStream.step, Exchange.step]
    cases sending.rest <;> exact ⟨rfl, rfl⟩
  | take =>
    rw [ClientStream.step, Exchange.step]
    cases sending.take <;> exact ⟨rfl, rfl⟩
  | close =>
    rw [ClientStream.step, Exchange.step]
    dsimp only
    rw [Reply.isDone]
    split <;> exact ⟨rfl, rfl⟩
  | serve =>
    rw [ClientStream.step, Exchange.step]
    dsimp only
    cases serving.step process sending.channel.passed sending.isWhole <;> exact ⟨rfl, rfl⟩
  | receive =>
    rw [ClientStream.step, Exchange.step]
    dsimp only
    rw [Reply.isDone]
    cases reply.isWaiting with
    | false => exact ⟨rfl, rfl⟩
    | true =>
      cases serving.deliver with
      | none => exact ⟨rfl, rfl⟩
      | some delivered =>
        obtain ⟨a, serving'⟩ := delivered
        exact settle (c := ⟨sending, serving', reply, false⟩) ⟨rfl, rfl⟩ (reply.arrive a)
  | quit =>
    rw [ClientStream.step, hfailed]
    exact ⟨rfl, rfl⟩
  | expire =>
    rw [ClientStream.step, hduration]
    exact ⟨rfl, rfl⟩
  | stop => exact absurd rfl he

theorem ClientStream.comesTo {result : Except Error (Outcome β)}
    (hduration : limits.duration = none)
    (hanswers : Answers process k st (ms.take (limits.enough ms.length)) out)
    (hfinishes : Finishes Reply.arrive Reply.isDone (.waiting none none) out)
    (hresult : (out.foldl Reply.arrive (.waiting none none)).result? (limits.enough ms.length) =
      some result)
    (hend : ∀ o, result = .ok o → .ended none ∈ out) :
    ComesTo (fun schedule ↦
      let c := ClientStream.run fromList limits process ms st schedule
      (c.stopped, c.result?)) result := by
  have hfollows : Exchange.Follows Reply.arrive Reply.isDone limits process ms out
      (.waiting none none) k ⟨{ provider := ms }, { state := some st }, .waiting none none⟩ :=
    Exchange.follows_start .start rfl rfl hanswers
  have hstart : ClientStream.IsExchange
      ({ sending := { provider := ms }, serving := { state := some st } } :
        ClientStream (List α) α β σ)
      ⟨{ provider := ms }, { state := some st }, .waiting none none⟩ := ⟨rfl, rfl⟩
  refine comesTo_of_related (ClientStream.step fromList limits process)
    (fun c ↦ (c.stopped, c.result?)) (fun c x ↦ c.IsExchange x) ?_ ?_ ?_ hfinishes hfollows hstart
  · rintro e c x k he hrelated h
    have hfailed := h.sending.failed_eq
    rw [hrelated.exchange_eq] at hfailed
    exact hrelated.step hduration hfailed he
  · rintro c x k hrelated h hover
    obtain ⟨rfl, hstopped⟩ := hrelated
    obtain ⟨hreader, hsent⟩ := h.reader_eq_of_over hfinishes hover
    rw [← hreader] at hresult
    obtain ⟨sent, hsending⟩ := Option.isSome_iff_exists.1 hover.1
    obtain rfl := h.sending.result_eq hsending
    rw [hstopped, ClientStream.result?]
    dsimp only at hresult hsending ⊢
    rw [hsending]
    cases hreply : c.reply with
    | waiting headers m => rw [hreply] at hresult; cases hresult
    | abandoned => rw [hreply] at hresult; cases hresult
    | failed status => rw [hreply] at hresult; rw [← hresult]; rfl
    | received m headers =>
      rw [hreply] at hresult
      have hsent := hsent (hend _ (Option.some.inj hresult).symm)
      rw [← hresult, ← hsent]
      rfl
  · rintro c x k hrelated h hover
    obtain ⟨rfl, hstopped⟩ := hrelated
    rw [hstopped, ClientStream.result?]
    cases hsending : c.sending.result? with
    | none => rfl
    | some sent =>
      have hwaiting : c.reply.isWaiting = true := by
        cases hw : c.reply.isWaiting with
        | true => rfl
        | false => exact absurd ⟨hsending ▸ rfl, by rw [Reply.isDone, hw]; rfl⟩ hover
      cases hreply : c.reply with
      | waiting headers m => rfl
      | _ => rw [hreply] at hwaiting; cases hwaiting

/-! ## Streams both ways -/

theorem Receiving.arrive_letPass (r : Receiving Unit β) (a : Arrival β) :
    (r.arrive letPass a).1 = .proceed := by
  rw [arrive.eq_def]
  cases r.phase with
  | opening => rfl
  | finished result => rfl
  | reading =>
    cases a with
    | headers metadata => rfl
    | message m => rfl
    | ended fault => cases fault <;> rfl

/-- A receiving loop without an interceptor. -/
def Receiving.read (r : Receiving Unit β) (a : Arrival β) : Receiving Unit β :=
  (r.arrive letPass a).2

/-- A call with streams both ways is an exchange until it is stopped. -/
structure Bidi.IsExchange (c : Bidi (List α) Unit α β σ)
    (x : Exchange α β σ (Receiving Unit β)) : Prop where
  exchange_eq : x = ⟨c.sending, c.serving, c.receiving⟩
  stopped_eq : c.stopped = false

theorem Bidi.IsExchange.receive {c : Bidi (List α) Unit α β σ}
    {x : Exchange α β σ (Receiving Unit β)} (h : c.IsExchange x) (a : Arrival β) :
    (c.receive letPass a).IsExchange (x.settle Receiving.isDone (c.receiving.read a)) := by
  obtain ⟨rfl, hstopped⟩ := h
  rw [Bidi.receive, Receiving.read, Exchange.settle, Receiving.isDone]
  dsimp only
  rw [Receiving.arrive_letPass, if_neg (by decide), Bidi.settle]
  cases (c.receiving.arrive letPass a).2.result? <;> exact ⟨rfl, hstopped⟩

theorem Bidi.IsExchange.step {c : Bidi (List α) Unit α β σ} {x : Exchange α β σ (Receiving Unit β)}
    (h : c.IsExchange x) (hduration : limits.duration = none)
    (hfailed : c.sending.failed = false) {e : Step} (he : e ≠ .stop) :
    IsExchange ((Bidi.step fromList letPass limits process e c).getD c)
      ((Exchange.step Receiving.read Receiving.isDone limits process e x).getD x) := by
  obtain ⟨sending, serving, receiving, stopped⟩ := c
  obtain ⟨rfl, rfl⟩ := h
  have habandons : abandons ⟨sending, serving, receiving, false⟩ = false := hfailed
  cases e with
  | send =>
    rw [Bidi.step, Exchange.step]
    cases sending.go fromList limits <;> exact ⟨rfl, rfl⟩
  | rest =>
    rw [Bidi.step, Exchange.step]
    cases sending.rest <;> exact ⟨rfl, rfl⟩
  | take =>
    rw [Bidi.step, Exchange.step]
    cases sending.take <;> exact ⟨rfl, rfl⟩
  | close =>
    rw [Bidi.step, Exchange.step, Receiving.isDone]
    dsimp only
    split <;> exact ⟨rfl, rfl⟩
  | serve =>
    rw [Bidi.step, Exchange.step]
    dsimp only
    cases serving.step process sending.channel.passed sending.isWhole <;> exact ⟨rfl, rfl⟩
  | receive =>
    rw [Bidi.step_receive_eq, habandons, Receiving.takes_eq_isNone, Exchange.step,
      Receiving.isDone]
    dsimp only
    cases receiving.result? with
    | some result => exact ⟨rfl, rfl⟩
    | none =>
      cases serving.deliver with
      | none => exact ⟨rfl, rfl⟩
      | some delivered =>
        obtain ⟨a, serving'⟩ := delivered
        exact receive (c := ⟨sending, serving', receiving, false⟩) ⟨rfl, rfl⟩ a
  | quit =>
    rw [Bidi.step, habandons]
    exact ⟨rfl, rfl⟩
  | expire =>
    rw [Bidi.step, hduration]
    exact ⟨rfl, rfl⟩
  | stop => exact absurd rfl he

theorem Bidi.comesTo (hduration : limits.duration = none)
    (hanswers : Answers process k st (ms.take (limits.enough ms.length)) out)
    (hfinishes : Finishes Receiving.read Receiving.isDone { watch := () } out)
    {r : Receiving Unit β} (hr : out.foldl Receiving.read { watch := () } = r)
    {result : Except Error Unit} (hresult : r.result? = some result)
    (hend : result = .ok () → .ended none ∈ out) :
    ComesTo (fun schedule ↦
      let c := Bidi.run fromList letPass limits process ms () st schedule
      (c.stopped, c.result?)) (result.map fun () ↦ r.outcome (limits.enough ms.length)) := by
  have hfollows : Exchange.Follows Receiving.read Receiving.isDone limits process ms out
      { watch := () } k ⟨{ provider := ms }, { state := some st }, { watch := () }⟩ :=
    Exchange.follows_start .start rfl rfl hanswers
  have hstart : Bidi.IsExchange
      ({ sending := { provider := ms }, serving := { state := some st },
         receiving := { watch := () } } : Bidi (List α) Unit α β σ)
      ⟨{ provider := ms }, { state := some st }, { watch := () }⟩ := ⟨rfl, rfl⟩
  refine comesTo_of_related (Bidi.step fromList letPass limits process)
    (fun c ↦ (c.stopped, c.result?)) (fun c x ↦ c.IsExchange x) ?_ ?_ ?_ hfinishes hfollows hstart
  · rintro e c x k he hrelated h
    have hfailed := h.sending.failed_eq
    rw [hrelated.exchange_eq] at hfailed
    exact hrelated.step hduration hfailed he
  · rintro c x k hrelated h hover
    obtain ⟨rfl, hstopped⟩ := hrelated
    obtain ⟨hreader, hsent⟩ := h.reader_eq_of_over hfinishes hover
    obtain ⟨sent, hsending⟩ := Option.isSome_iff_exists.1 hover.1
    obtain rfl := h.sending.result_eq hsending
    dsimp only at hreader hsending hsent
    rw [hr] at hreader
    rw [hstopped, Bidi.result?, hsending, hreader, hresult]
    cases result with
    | error e => rfl
    | ok u =>
      rw [hsent (hend rfl)]
      rfl
  · rintro c x k hrelated h hover
    obtain ⟨rfl, hstopped⟩ := hrelated
    rw [hstopped, Bidi.result?]
    cases hsending : c.sending.result? with
    | none => rfl
    | some sent =>
      obtain rfl := h.sending.result_eq hsending
      have hnone : c.receiving.result? = none := by
        rw [← Option.not_isSome_iff_eq_none]
        exact fun hsome ↦ hover ⟨hsending ▸ rfl, hsome⟩
      rw [hnone]

end CallCheck.Worker

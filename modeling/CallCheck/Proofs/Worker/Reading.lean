import CallCheck.Proofs.Worker.Calls

/-!
# Reading streams

What a receiving loop makes of headers, messages and the end of a call, if nothing intercepts the
messages. A loop that has enough of them ends before the call does. So what comes of a call with a
stream of replies can be read off the answer.
-/

namespace CallCheck.Worker

open Call (Error Limits Status)
open Session (Metadata)

variable {β : Type} {limits : Limits} {r : Receiving Unit β}

namespace Receiving

/-- Headers are there, and nothing else yet. -/
def opened (headers : Metadata) : Receiving Unit β := { watch := (), phase := .reading, headers }

/-- Some messages later. -/
def more (r : Receiving Unit β) (messages : List β) : Receiving Unit β :=
  { r with received := r.received + messages.length, last := messages.getLast?.or r.last }

/-- What comes of a call that ends by itself. -/
def ending : Option Status → Except Error Unit
  | none => .ok ()
  | some status => .error (.status status)

/-- A loop with a limit is one without, which ends when it has enough. -/
theorem receive_eq (r : Receiving Unit β) (a : Arrival β) :
    ServerStream.receive letPass limits r a =
      match (r.read a).phase with
      | .reading => if limits.reached (r.read a).received then (r.read a).finish else r.read a
      | _ => r.read a := by
  have hverdict := arrive_letPass r a
  rw [ServerStream.receive, read]
  rcases h : r.arrive letPass a with ⟨verdict, r'⟩
  rw [h] at hverdict
  obtain rfl : verdict = .proceed := hverdict
  rfl

theorem read_eq : (read : Receiving Unit β → Arrival β → _) = ServerStream.receive letPass {} := by
  funext r a
  rw [receive_eq]
  split <;> rfl

theorem receive_headers (headers : Metadata) :
    ServerStream.receive letPass limits ({ watch := () } : Receiving Unit β) (.headers headers) =
      opened headers := by
  have hread : read { watch := () } (.headers headers) = (opened headers : Receiving Unit β) := rfl
  rw [receive_eq, hread, opened, limits.reached_zero]
  rfl

theorem receive_message (hphase : r.phase = .reading) (m : β) :
    ServerStream.receive letPass limits r (.message m) =
      if limits.reached (r.received + 1) then (r.more [m]).finish else r.more [m] := by
  have hread : r.read (.message m) = r.more [m] := by
    rw [read, arrive.eq_def, hphase]
    rfl
  have hphase' : (r.more [m]).phase = .reading := hphase
  rw [receive_eq, hread, hphase']
  rfl

theorem receive_ended (hphase : r.phase = .reading) (fault : Option Status) :
    ServerStream.receive letPass limits r (.ended fault) = r.finish (ending fault) := by
  have hread : r.read (.ended fault) = r.finish (ending fault) := by
    rw [read, arrive.eq_def, hphase]
    cases fault <;> rfl
  rw [receive_eq, hread]
  rfl

theorem more_more (r : Receiving Unit β) (ms ms' : List β) :
    (r.more ms).more ms' = r.more (ms ++ ms') := by
  rw [more, more, more, List.getLast?_append, List.length_append, ← Nat.add_assoc, Option.or_assoc]

theorem receive_message_of_not (hphase : r.phase = .reading) (m : β) {n : Nat}
    (hnot : limits.reached (r.received + (n + 1)) = false) :
    ServerStream.receive letPass limits r (.message m) = r.more [m] := by
  rw [receive_message hphase]
  refine if_neg fun hreached ↦ ?_
  rw [Call.Limits.reached_of_le hreached (by omega)] at hnot
  cases hnot

theorem reads_messages (hphase : r.phase = .reading) (ms : List β)
    (hnot : limits.reached (r.received + ms.length) = false) (rest : List (Arrival β)) :
    (ms.map Arrival.message ++ rest).foldl (ServerStream.receive letPass limits) r =
        rest.foldl (ServerStream.receive letPass limits) (r.more ms) ∧
      (Finishes (ServerStream.receive letPass limits) isDone (r.more ms) rest →
        Finishes (ServerStream.receive letPass limits) isDone r
          (ms.map Arrival.message ++ rest)) := by
  -- The limit counts from the start of the loop, so the count so far must be general.
  induction ms generalizing r with
  | nil => exact ⟨rfl, fun hrest ↦ hrest⟩
  | cons m ms ih =>
    have hread := receive_message_of_not hphase m hnot
    have hphase' : (r.more [m]).phase = .reading := hphase
    have hnot' : limits.reached ((r.more [m]).received + ms.length) = false := by
      rw [← hnot, List.length_cons, Nat.add_comm ms.length, ← Nat.add_assoc]
      rfl
    have hdone : r.isDone = false := by
      rw [isDone, result?, hphase]
      rfl
    obtain ⟨hfold, hfinishes⟩ := ih hphase' hnot'
    rw [more_more] at hfold hfinishes
    refine ⟨?_, fun hrest ↦ ⟨hdone, ?_⟩⟩
    · rw [List.map_cons, List.cons_append, List.foldl_cons, hread]
      exact hfold
    · rw [hread]
      exact hfinishes hrest

theorem reads_last (headers : Metadata) (ms : List β) (hnot : limits.reached ms.length = false)
    {a : Arrival β} {r' : Receiving Unit β}
    (hlast : ServerStream.receive letPass limits ((opened headers).more ms) a = r')
    (hdone : r'.isDone = true) :
    let out := .headers headers :: (ms.map Arrival.message ++ [a])
    Finishes (ServerStream.receive letPass limits) isDone { watch := () } out ∧
      out.foldl (ServerStream.receive letPass limits) { watch := () } = r' := by
  have hreceived : (opened headers : Receiving Unit β).received + ms.length = ms.length :=
    Nat.zero_add _
  obtain ⟨hfold, hfinishes⟩ :=
    reads_messages (rfl : (opened headers).phase = .reading) ms (hreceived ▸ hnot) [a]
  constructor
  · refine ⟨rfl, ?_⟩
    rw [receive_headers]
    exact hfinishes ⟨rfl, hlast ▸ hdone⟩
  · rw [List.foldl_cons, receive_headers, hfold]
    exact hlast

theorem reads_ended (limits : Limits) (headers : Metadata) (ms : List β) (fault : Option Status)
    (hnot : limits.reached ms.length = false) :
    let out := .headers headers :: (ms.map Arrival.message ++ [.ended fault])
    Finishes (ServerStream.receive letPass limits) isDone { watch := () } out ∧
      out.foldl (ServerStream.receive letPass limits) { watch := () } =
        ((opened headers).more ms).finish (ending fault) :=
  reads_last headers ms hnot (receive_ended rfl fault) rfl

theorem reads_enough (headers : Metadata) (ms : List β) (m : β)
    (hnot : limits.reached ms.length = false) (hreached : limits.reached (ms.length + 1) = true) :
    let out := .headers headers :: (ms.map Arrival.message ++ [.message m])
    Finishes (ServerStream.receive letPass limits) isDone { watch := () } out ∧
      out.foldl (ServerStream.receive letPass limits) { watch := () } =
        ((opened headers).more (ms ++ [m])).finish := by
  have hreceived : ((opened headers).more ms).received + 1 = ms.length + 1 :=
    congrArg (· + 1) (Nat.zero_add _)
  refine reads_last headers ms hnot ?_ rfl
  rw [receive_message rfl, hreceived, if_pos hreached, more_more]

theorem outcome_more (headers : Metadata) (ms : List β) (result : Except Error Unit) (sent : Nat) :
    (((opened headers).more ms).finish result).outcome sent =
      { sent, received := ms.length, response := ms.getLast?, headers } := by
  rw [outcome, more, finish, opened]
  dsimp only
  rw [Nat.zero_add, Option.or_none]

end Receiving

/-! ## Calls with a stream of replies -/

variable {α σ : Type} {process : Process α β σ} {k : Nat} {st : σ} {m : α} {ms : List α}
  {headers : Metadata}

theorem ServerStream.comesTo_ended (replies : List β) (hduration : limits.duration = none)
    {fault : Option Status}
    (hanswers : Answers process k st [m]
      (.headers headers :: (replies.map .message ++ [.ended fault])))
    (hnot : limits.reached replies.length = false) :
    ComesTo (fun schedule ↦
      let c := ServerStream.run letPass limits process m () st schedule
      (c.stopped, c.result?))
      ((Receiving.ending fault).map fun () ↦
        { sent := 1, received := replies.length, response := replies.getLast?, headers }) := by
  obtain ⟨hfinishes, hr⟩ := Receiving.reads_ended limits headers replies fault hnot
  have hcomes := ServerStream.comesTo hduration hanswers hfinishes hr rfl
  rwa [Receiving.outcome_more] at hcomes

theorem ServerStream.comesTo_enough (replies : List β) (hduration : limits.duration = none)
    {last : β}
    (hanswers : Answers process k st [m]
      (.headers headers :: (replies.map .message ++ [.message last])))
    (hnot : limits.reached replies.length = false)
    (hreached : limits.reached (replies.length + 1) = true) :
    ComesTo (fun schedule ↦
      let c := ServerStream.run letPass limits process m () st schedule
      (c.stopped, c.result?))
      (.ok { sent := 1, received := replies.length + 1, response := some last, headers }) := by
  obtain ⟨hfinishes, hr⟩ := Receiving.reads_enough headers replies last hnot hreached
  have hcomes := ServerStream.comesTo hduration hanswers hfinishes hr rfl
  rwa [Receiving.outcome_more, List.length_append, List.length_singleton,
    List.getLast?_concat] at hcomes

theorem Bidi.comesTo_ended (replies : List β) (hduration : limits.duration = none)
    {fault : Option Status}
    (hanswers : Answers process k st (ms.take (limits.enough ms.length))
      (.headers headers :: (replies.map .message ++ [.ended fault]))) :
    ComesTo (fun schedule ↦
      let c := Bidi.run fromList letPass limits process ms () st schedule
      (c.stopped, c.result?))
      ((Receiving.ending fault).map fun () ↦ {
        sent := limits.enough ms.length
        received := replies.length
        response := replies.getLast?
        headers }) := by
  obtain ⟨hfinishes, hr⟩ := Receiving.reads_ended {} headers replies fault rfl
  rw [← Receiving.read_eq] at hfinishes hr
  have hend : Receiving.ending fault = .ok () →
      .ended none ∈ (.headers headers :: (replies.map .message ++ [.ended fault]) :
        List (Arrival β)) := by
    intro hok
    cases fault with
    | some status => cases hok
    | none => exact List.mem_cons_of_mem _ (List.mem_append_right _ (List.mem_singleton.2 rfl))
  have hcomes := Bidi.comesTo hduration hanswers hfinishes hr rfl hend
  rwa [Receiving.outcome_more] at hcomes

end CallCheck.Worker

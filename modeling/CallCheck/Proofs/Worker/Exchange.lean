import CallCheck.Proofs.Worker.Answer
import CallCheck.Proofs.Worker.Progress
import CallCheck.Proofs.Worker.Sending

/-!
# Exchanges

What all kinds of calls have in common, as long as nobody interferes: the messages of a list are
sent, a server answers them, and a reader takes the answer. An exchange has these three parts and
the steps that they make. It ends when everything has been sent and the reader is done.

## Main statements

Whatever the schedule, an exchange that has ended has read the whole answer of the server to the
messages that are enough (`Exchange.reader_eq_of_over`), and under a fair schedule it ends
(`Exchange.exists_over`). Both rest on the invariant `Exchange.Follows`, which every step keeps.
-/

namespace CallCheck.Worker

open Call (Limits)

/-- A list of messages on one side, a server on the other, and a reader of its answer. -/
structure Exchange (α β σ R : Type) where
  /-- The sending side. -/
  sending : Sending (List α) α
  /-- The side of the server. -/
  serving : Serving β σ
  /-- Who reads the answer. -/
  reader : R

namespace Exchange

variable {α β σ R : Type}

/-- The exchange with the reader in another state. A reader who is done tells the sending loop to
end. -/
def settle (isDone : R → Bool) (x : Exchange α β σ R) (reader : R) : Exchange α β σ R :=
  if isDone reader then { x with reader, sending := x.sending.tellToEnd } else { x with reader }

/-- One step. -/
def step (read : R → Arrival β → R) (isDone : R → Bool) (limits : Limits) (process : Process α β σ)
    (e : Step) (x : Exchange α β σ R) : Option (Exchange α β σ R) :=
  match e with
  | .send => (x.sending.go fromList limits).map fun sending ↦ { x with sending }
  | .rest => x.sending.rest.map fun sending ↦ { x with sending }
  | .take => x.sending.take.map fun sending ↦ { x with sending }
  | .close =>
    if x.serving.state.isNone || isDone x.reader then
      some { x with sending := x.sending.close }
    else none
  | .serve =>
    (x.serving.step process x.sending.channel.passed x.sending.isWhole).map fun serving ↦
      { x with serving }
  | .receive =>
    if isDone x.reader then none
    else x.serving.deliver.map fun (a, serving) ↦
      { x with serving }.settle isDone (read x.reader a)
  | _ => none

/-- Everything has been sent and the reader is done. -/
def Over (isDone : R → Bool) (x : Exchange α β σ R) : Prop :=
  x.sending.result?.isSome ∧ isDone x.reader = true

variable {read : R → Arrival β → R} {isDone : R → Bool} {limits : Limits}
  {process : Process α β σ} {ms : List α} {out : List (Arrival β)} {start : R} {k : Nat}
  {x x' : Exchange α β σ R} {e : Step}

/-- The exchange is on its way through an answer, with the server at most `k` steps from its end. -/
structure Follows (read : R → Arrival β → R) (isDone : R → Bool) (limits : Limits)
    (process : Process α β σ) (ms : List α) (out : List (Arrival β)) (start : R) (k : Nat)
    (x : Exchange α β σ R) : Prop where
  /-- The messages of the list are sent. -/
  sending : x.sending.Follows ms limits
  /-- The server answers those that are enough. -/
  serving : x.serving.Follows process (ms.take (limits.enough ms.length)) out k
  /-- No more is read than has reached the server. -/
  heard_le : x.serving.heard ≤ x.sending.channel.taken
  /-- The reader has read a beginning of the answer. -/
  reader_eq : x.reader = x.serving.answer.passed.foldl read start
  /-- The reader has read no more than the answer. -/
  passed_prefix : x.serving.answer.passed <+: out
  /-- The reader has read no more than has been sent. -/
  taken_le : x.serving.answer.taken ≤ x.serving.answer.written.length
  /-- The sending loop is told to end by the reader only. -/
  ended : x.sending.ended = true → isDone x.reader = true
  /-- Messages are taken until the server has ended the call or the reader is done. -/
  closed : x.sending.closed = true → x.serving.state = none ∨ isDone x.reader = true

/-- The server has sent the answer. -/
def Sent (out : List (Arrival β)) (x : Exchange α β σ R) : Prop := out <+: x.serving.answer.written

/-- A bound on the number of steps to the end, of those that matter. -/
def due (out : List (Arrival β)) (k : Nat) (x : Exchange α β σ R) : Nat :=
  x.sending.due + k + (out.length - x.serving.answer.taken) + (if x.sending.closed then 0 else 1)

theorem due_settle (x : Exchange α β σ R) (reader : R) :
    due out k (x.settle isDone reader) = due out k x := by
  rw [settle]
  split <;> rfl

namespace Follows

theorem sent_of_isDone (hfinishes : Finishes read isDone start out)
    (h : Follows read isDone limits process ms out start k x) (hdone : isDone x.reader = true) :
    x.serving.answer.passed = out ∧ Sent out x := by
  rw [h.reader_eq] at hdone
  have hpassed := (hfinishes.isDone_iff h.passed_prefix).1 hdone
  exact ⟨hpassed, hpassed ▸ Pipe.passed_prefix _⟩

theorem flags_of_not_sent (hfinishes : Finishes read isDone start out)
    (h : Follows read isDone limits process ms out start k x) (hsent : ¬ Sent out x)
    (hstate : x.serving.state.isSome) :
    x.sending.ended = false ∧ x.sending.closed = false := by
  have hdone : isDone x.reader ≠ true := fun hdone ↦ hsent (h.sent_of_isDone hfinishes hdone).2
  constructor
  · exact Bool.eq_false_iff.2 fun hended ↦ hdone (h.ended hended)
  · refine Bool.eq_false_iff.2 fun hclosed ↦ ?_
    rcases h.closed hclosed with hnone | hdone'
    · rw [hnone] at hstate
      cases hstate
    · exact hdone hdone'

theorem advance (h : Follows read isDone limits process ms out start k x)
    {sending : Sending (List α) α}
    (hsending : sending.Follows ms limits ∧ sending.due < x.sending.due)
    (hadvances : Sending.Advances x.sending sending) :
    Follows read isDone limits process ms out start k { x with sending } ∧
      due out k { x with sending } < due out k x := by
  constructor
  · exact {
      sending := hsending.1
      serving := h.serving
      heard_le := Nat.le_trans h.heard_le hadvances.taken_le
      reader_eq := h.reader_eq
      passed_prefix := h.passed_prefix
      taken_le := h.taken_le
      ended := fun hended ↦ h.ended (hadvances.ended_eq ▸ hended)
      closed := fun hclosed ↦ h.closed (hadvances.closed_eq ▸ hclosed) }
  · have hlower := hsending.2
    rw [due, due, hadvances.closed_eq]
    dsimp only
    omega

theorem of_close (h : Follows read isDone limits process ms out start k x)
    (hend : x.serving.state = none ∨ isDone x.reader = true) :
    Follows read isDone limits process ms out start k { x with sending := x.sending.close } where
  sending := h.sending.close
  serving := h.serving
  heard_le := h.heard_le
  reader_eq := h.reader_eq
  passed_prefix := h.passed_prefix
  taken_le := h.taken_le
  ended := h.ended
  closed _ := hend

theorem of_serving {serving : Serving β σ} {k' : Nat}
    (h : Follows read isDone limits process ms out start k x)
    (hfollows : serving.Follows process (ms.take (limits.enough ms.length)) out k')
    (hgrows : Serving.Grows x.sending.channel.passed x.serving serving) :
    Follows read isDone limits process ms out start k' { x with serving } := by
  have hpassed := hgrows.passed_eq h.taken_le
  have hlength : x.sending.channel.passed.length ≤ x.sending.channel.taken :=
    List.length_take_le _ _
  refine ⟨h.sending, hfollows, ?_, ?_, ?_, ?_, h.ended, ?_⟩
  · have hheard := hgrows.heard_le
    have hle := h.heard_le
    dsimp only
    omega
  · rw [hpassed]
    exact h.reader_eq
  · rw [hpassed]
    exact h.passed_prefix
  · rw [hgrows.taken_eq]
    exact Nat.le_trans h.taken_le hgrows.written_prefix.length_le
  · intro hclosed
    rcases h.closed hclosed with hnone | hdone
    · have hsome := hgrows.isSome
      rw [hnone] at hsome
      cases hsome
    · exact .inr hdone

theorem serve (hfinishes : Finishes read isDone start out)
    (h : Follows read isDone limits process ms out start k x) {serving : Serving β σ}
    (hs : x.serving.step process x.sending.channel.passed x.sending.isWhole = some serving) :
    Serving.Grows x.sending.channel.passed x.serving serving ∧
      ((¬ Sent out x ∧
          ∃ k' < k, Follows read isDone limits process ms out start k' { x with serving }) ∨
        (Sent out x ∧ Follows read isDone limits process ms out start k { x with serving })) := by
  have hserves := Serving.serves_of_step hs
  have hgrows := Serving.grows_of_serves hserves
  have hbegin := h.sending.passed_prefix
  refine ⟨hgrows, ?_⟩
  by_cases hsent : Sent out x
  · exact .inr ⟨hsent, h.of_serving (h.serving.step_of_sent hsent hbegin hserves) hgrows⟩
  · -- A server that takes the stream for ended has heard everything, since nobody cut it short.
    have hwhole : x.sending.isWhole = true →
        x.sending.channel.passed = ms.take (limits.enough ms.length) := by
      intro hwhole
      obtain ⟨hended, hclosed⟩ := h.flags_of_not_sent hfinishes hsent hgrows.isSome
      exact h.sending.passed_eq_of_isWhole hwhole hended hclosed
    obtain ⟨k', hk', hfollows⟩ := h.serving.step_of_not_sent hsent hbegin hwhole hserves
    exact .inl ⟨hsent, k', hk', h.of_serving hfollows hgrows⟩

theorem passed_append_prefix (hfinishes : Finishes read isDone start out)
    (h : Follows read isDone limits process ms out start k x) (hdone : isDone x.reader = false)
    {a : Arrival β} (hnext : x.serving.answer.next? = some a) :
    x.serving.answer.passed ++ [a] <+: out := by
  have hne : x.serving.answer.passed ≠ out := by
    intro hpassed
    have hiff := hfinishes.isDone_iff h.passed_prefix
    rw [← h.reader_eq, hdone] at hiff
    exact Bool.false_ne_true (hiff.2 hpassed)
  have hwritten : x.serving.answer.passed ++ [a] <+: x.serving.answer.written := by
    rw [← Pipe.passed_take hnext]
    exact Pipe.passed_prefix _
  -- Either what has been written is a beginning of the answer, or the other way round.
  rcases h.serving.ahead with ⟨st, rest, -, hout, -⟩ | hsent
  · exact hwritten.trans ⟨rest, hout⟩
  · have hle := h.passed_prefix.length_le
    refine List.prefix_of_prefix_length_le hwritten hsent ?_
    rw [List.length_append, List.length_singleton]
    rcases Nat.lt_or_eq_of_le hle with hlt | heq
    · exact hlt
    · exact absurd (h.passed_prefix.eq_of_length heq) hne

theorem of_deliver {a : Arrival β} (h : Follows read isDone limits process ms out start k x)
    (hdone : isDone x.reader = false) (hnext : x.serving.answer.next? = some a)
    (hbegin : x.serving.answer.passed ++ [a] <+: out) {sending : Sending (List α) α}
    (hfollows : sending.Follows ms limits) (hchannel : sending.channel = x.sending.channel)
    (hclosed : sending.closed = x.sending.closed)
    (hended : sending.ended = true → isDone (read x.reader a) = true) :
    Follows read isDone limits process ms out start k
      ⟨sending, { x.serving with answer := x.serving.answer.take }, read x.reader a⟩ := by
  have hpassed := Pipe.passed_take hnext
  have hlt : x.serving.answer.taken < x.serving.answer.written.length :=
    (Pipe.isSome_next? _).1 (hnext ▸ rfl)
  refine ⟨hfollows, ?_, ?_, ?_, ?_, hlt, hended, ?_⟩
  · exact ⟨h.serving.heard_le, h.serving.not_ended, h.serving.heard_eq, h.serving.ahead⟩
  · exact hchannel ▸ h.heard_le
  · rw [hpassed, List.foldl_append, ← h.reader_eq]
    rfl
  · rw [hpassed]
    exact hbegin
  · intro hclosed'
    rcases h.closed (hclosed ▸ hclosed') with hnone | hdone'
    · exact .inl hnone
    · exact absurd hdone' (hdone ▸ Bool.false_ne_true)

theorem receive (hfinishes : Finishes read isDone start out)
    (h : Follows read isDone limits process ms out start k x) (hdone : isDone x.reader = false)
    {a : Arrival β} (hnext : x.serving.answer.next? = some a) (hx' : x' =
      settle isDone { x with serving := { x.serving with answer := x.serving.answer.take } }
        (read x.reader a)) :
    Follows read isDone limits process ms out start k x' ∧ due out k x' < due out k x := by
  have hbegin := h.passed_append_prefix hfinishes hdone hnext
  have hended : x.sending.ended = true → isDone (read x.reader a) = true :=
    fun hended ↦ absurd (h.ended hended) (hdone ▸ Bool.false_ne_true)
  have hlt : x.serving.answer.taken < out.length := by
    have hle := hbegin.length_le
    have htaken := h.taken_le
    rw [List.length_append, List.length_singleton, Pipe.passed, List.length_take] at hle
    omega
  have hdue : due out k x' = x.sending.due + k + (out.length - (x.serving.answer.taken + 1)) +
      (if x.sending.closed then 0 else 1) := by
    rw [hx', due_settle]
    rfl
  refine ⟨?_, by rw [hdue, due]; omega⟩
  rw [hx', settle]
  split
  · rename_i hdone'
    exact h.of_deliver hdone hnext hbegin h.sending.tellToEnd rfl rfl fun _ ↦ hdone'
  · exact h.of_deliver hdone hnext hbegin h.sending rfl rfl hended

/-- Every step brings the exchange closer to its end, but for the transport when it takes no more
messages anyway and for the server when it has sent the answer. -/
theorem step_cases (hfinishes : Finishes read isDone start out)
    (h : Follows read isDone limits process ms out start k x)
    (hs : step read isDone limits process e x = some x') :
    (∃ k', Follows read isDone limits process ms out start k' x' ∧ due out k' x' < due out k x) ∨
      (e = .close ∧ x' = x) ∨
      (e = .serve ∧ Sent out x ∧ Follows read isDone limits process ms out start k x' ∧
        ∃ serving, x' = { x with serving } ∧
          Serving.Grows x.sending.channel.passed x.serving serving) := by
  cases e with
  | send =>
    obtain ⟨sending, hgo, rfl⟩ := Option.map_eq_some_iff.1 hs
    exact .inl ⟨k, h.advance (h.sending.go hgo) (Sending.advances_of_go hgo)⟩
  | rest =>
    obtain ⟨sending, hrest, rfl⟩ := Option.map_eq_some_iff.1 hs
    exact .inl ⟨k, h.advance (h.sending.rest hrest) (Sending.advances_of_rest hrest)⟩
  | take =>
    obtain ⟨sending, htake, rfl⟩ := Option.map_eq_some_iff.1 hs
    exact .inl ⟨k, h.advance (h.sending.take htake) (Sending.advances_of_take htake)⟩
  | close =>
    rw [step] at hs
    split at hs
    · rename_i hend
      rw [Bool.or_eq_true_iff, Option.isNone_iff_eq_none] at hend
      obtain rfl := Option.some.inj hs
      -- To close what is closed changes nothing, and so the bound does not count it.
      cases hclosed : x.sending.closed with
      | true =>
        refine .inr (.inl ⟨rfl, ?_⟩)
        obtain ⟨⟨_, _, _, _, closed, _⟩, _, _⟩ := x
        obtain rfl : closed = true := hclosed
        rfl
      | false =>
        refine .inl ⟨k, h.of_close hend, ?_⟩
        have hdue : due out k { x with sending := x.sending.close } =
            x.sending.due + k + (out.length - x.serving.answer.taken) + 0 := rfl
        rw [hdue, due, hclosed, if_neg Bool.false_ne_true]
        exact Nat.lt_succ_self _
    · cases hs
  | serve =>
    obtain ⟨serving, hserve, rfl⟩ := Option.map_eq_some_iff.1 hs
    obtain ⟨hgrows, ⟨-, k', hk', hfollows⟩ | ⟨hsent, hfollows⟩⟩ := h.serve hfinishes hserve
    · refine .inl ⟨k', hfollows, ?_⟩
      rw [due, due, hgrows.taken_eq]
      dsimp only
      omega
    · exact .inr (.inr ⟨rfl, hsent, hfollows, serving, rfl, hgrows⟩)
  | receive =>
    rw [step] at hs
    split at hs
    · cases hs
    · rename_i hdone
      obtain ⟨⟨a, serving⟩, hdeliver, rfl⟩ := Option.map_eq_some_iff.1 hs
      obtain ⟨a', hnext, heq⟩ := Option.map_eq_some_iff.1 hdeliver
      obtain ⟨rfl, rfl⟩ := Prod.mk.inj heq
      exact .inl ⟨k, h.receive hfinishes (Bool.not_eq_true _ ▸ hdone) hnext rfl⟩
  | quit => cases hs
  | expire => cases hs
  | stop => cases hs

/-- At its end the reader has read the whole answer. If the server has ended the call without a
fault, all messages that are enough have been sent. -/
theorem reader_eq_of_over (hfinishes : Finishes read isDone start out)
    (h : Follows read isDone limits process ms out start k x) (hover : Over isDone x) :
    x.reader = out.foldl read start ∧
      (.ended none ∈ out → x.sending.sent = limits.enough ms.length) := by
  obtain ⟨hpassed, hsent⟩ := h.sent_of_isDone hfinishes hover.2
  refine ⟨?_, fun hend ↦ ?_⟩
  · rw [h.reader_eq, hpassed]
  · have hheard := h.serving.heard_eq hsent hend
    have hle := h.heard_le
    have htaken := h.sending.taken_le
    have hsent_le := h.sending.sent_le
    rw [List.length_take_of_le (limits.enough_le _)] at hheard
    omega

end Follows

/-! ## Steps that help -/

/-- A step can be made and is not one of those that may lead nowhere. -/
def Helps (read : R → Arrival β → R) (isDone : R → Bool) (limits : Limits) (process : Process α β σ)
    (out : List (Arrival β)) (e : Step) (x : Exchange α β σ R) : Prop :=
  (step read isDone limits process e x).isSome ∧ e ≠ .close ∧ (e = .serve → ¬ Sent out x)

/-- Whoever can go on helps, the server and the end of the transport aside. -/
theorem Helps.of_isSome {e : Step} (hsome : (step read isDone limits process e x).isSome)
    (hclose : e ≠ .close) (hserve : e ≠ .serve) : Helps read isDone limits process out e x :=
  ⟨hsome, hclose, fun he ↦ absurd he hserve⟩

theorem isSome_receive (hdone : isDone x.reader = false) :
    (step read isDone limits process .receive x).isSome ↔ x.serving.deliver.isSome := by
  rw [step, hdone, if_neg Bool.false_ne_true, Option.isSome_map]

/-- Until the end some step helps: there is something to read, or something to send, or else the
server is at work on the answer. -/
theorem Follows.exists_helps (hfinishes : Finishes read isDone start out)
    (h : Follows read isDone limits process ms out start k x) (hover : ¬ Over isDone x) :
    ∃ e, e ≠ .stop ∧ e ≠ .expire ∧ Helps read isDone limits process out e x := by
  by_cases hreceive : (step read isDone limits process .receive x).isSome
  · exact ⟨.receive, by decide, by decide, .of_isSome hreceive (by decide) (by decide)⟩
  cases hresult : x.sending.result? with
  | none =>
    rcases Sending.Follows.isSome_of_result_eq_none hresult with hgo | hrest | htake
    · exact ⟨.send, by decide, by decide,
        .of_isSome ((Option.isSome_map ..).trans hgo) (by decide) (by decide)⟩
    · exact ⟨.rest, by decide, by decide,
        .of_isSome ((Option.isSome_map ..).trans hrest) (by decide) (by decide)⟩
    · exact ⟨.take, by decide, by decide,
        .of_isSome ((Option.isSome_map ..).trans htake) (by decide) (by decide)⟩
  | some result =>
    have hfinished : x.sending.result?.isSome := hresult ▸ rfl
    have hdone : isDone x.reader = false := by
      refine Bool.eq_false_iff.2 fun hdone ↦ hover ⟨hfinished, hdone⟩
    rw [isSome_receive hdone, Serving.deliver, Option.isSome_map, Pipe.isSome_next?] at hreceive
    -- Everything that has been sent has been read, so that the answer has not been sent.
    have hsent : ¬ Sent out x := by
      intro hsent
      have hpassed : x.serving.answer.passed = x.serving.answer.written :=
        List.take_of_length_le (Nat.not_lt.1 hreceive)
      have hout : x.serving.answer.passed = out :=
        h.passed_prefix.eq_of_length_le (hpassed ▸ hsent.length_le)
      have hiff := hfinishes.isDone_iff h.passed_prefix
      rw [← h.reader_eq, hdone] at hiff
      exact Bool.false_ne_true (hiff.2 hout)
    obtain ⟨st, rest, hst, -⟩ := h.serving.ahead.resolve_right hsent
    obtain ⟨-, hclosed⟩ := h.flags_of_not_sent hfinishes hsent (hst ▸ rfl)
    cases hempty : x.sending.channel.isEmpty with
    | false =>
      have htake := Sending.Follows.isSome_take hclosed hempty
      exact ⟨.take, by decide, by decide,
        .of_isSome ((Option.isSome_map ..).trans htake) (by decide) (by decide)⟩
    | true =>
      have hwhole : x.sending.isWhole = true := by
        rw [Sending.isWhole, hfinished, hempty]
        rfl
      refine ⟨.serve, by decide, by decide, ?_, by decide, fun _ ↦ hsent⟩
      rw [step, Option.isSome_map, hwhole]
      exact Serving.isSome_step hst

theorem Helps.of_serving {e' : Step} {serving : Serving β σ}
    (hhelps : Helps read isDone limits process out e' x) (hsent : Sent out x)
    (hgrows : Serving.Grows x.sending.channel.passed x.serving serving) :
    Helps read isDone limits process out e' { x with serving } := by
  obtain ⟨hsome, hclose, hserve⟩ := hhelps
  refine ⟨?_, hclose, fun he ↦ absurd hsent (hserve he)⟩
  cases e' with
  | send => exact (Option.isSome_map ..).trans ((Option.isSome_map ..).symm.trans hsome)
  | rest => exact (Option.isSome_map ..).trans ((Option.isSome_map ..).symm.trans hsome)
  | take => exact (Option.isSome_map ..).trans ((Option.isSome_map ..).symm.trans hsome)
  | close => exact absurd rfl hclose
  | serve => exact absurd hsent (hserve rfl)
  | receive =>
    cases hdone : isDone x.reader with
    | true =>
      rw [step, hdone, if_pos rfl] at hsome
      cases hsome
    | false =>
      have hdone' : isDone ({ x with serving } : Exchange α β σ R).reader = false := hdone
      rw [isSome_receive hdone] at hsome
      rw [isSome_receive hdone']
      exact hgrows.isSome_deliver hsome
  | quit => cases hsome
  | expire => cases hsome
  | stop => cases hsome

/-- An exchange cannot but come to its end. -/
def progress (hfinishes : Finishes read isDone start out) :
    Progress (step read isDone limits process) (Over isDone : Exchange α β σ R → Prop) where
  Bound n x := ∃ k, Follows read isDone limits process ms out start k x ∧ due out k x = n
  Helps := Helps read isDone limits process out
  exists_helps := fun ⟨_, h, _⟩ hover ↦ h.exists_helps hfinishes hover
  isSome_of_helps hhelps := hhelps.1
  step_cases := by
    rintro _ x e x' ⟨k, h, rfl⟩ hs
    rcases h.step_cases hfinishes hs with
      ⟨k', hfollows, hdue⟩ | ⟨rfl, rfl⟩ | ⟨rfl, hsent, hfollows, serving, rfl, hgrows⟩
    · exact .inl ⟨_, hdue, k', hfollows, rfl⟩
    · exact .inr ⟨⟨k, h, rfl⟩, fun e' hhelps ↦ ⟨hhelps.2.1, hhelps⟩⟩
    · refine .inr ⟨⟨k, hfollows, ?_⟩, fun e' hhelps ↦ ⟨fun he ↦ hhelps.2.2 he hsent, ?_⟩⟩
      · rw [due, due, hgrows.taken_eq]
      · exact hhelps.of_serving hsent hgrows

/-! ## Whole runs -/

theorem follows_start {sending : Sending (List α) α} {st : σ} (hsending : sending.Follows ms limits)
    (hended : sending.ended = false) (hclosed : sending.closed = false)
    (hanswers : Answers process k st (ms.take (limits.enough ms.length)) out) :
    Follows read isDone limits process ms out start k ⟨sending, { state := some st }, start⟩ where
  sending := hsending
  serving := .start hanswers
  heard_le := Nat.zero_le _
  reader_eq := rfl
  passed_prefix := List.nil_prefix
  taken_le := Nat.le_refl 0
  ended h := absurd h (hended ▸ Bool.false_ne_true)
  closed h := absurd h (hclosed ▸ Bool.false_ne_true)

theorem follows_runSchedule (hfinishes : Finishes read isDone start out)
    (h : Follows read isDone limits process ms out start k x) (schedule : List Step) :
    ∃ k, Follows read isDone limits process ms out start k
      (runSchedule (step read isDone limits process) schedule x) := by
  refine runSchedule_induction (P := fun x ↦ ∃ k, Follows _ _ _ _ _ _ _ k x) ?_ schedule ⟨k, h⟩
  rintro e x x' hs ⟨k, h⟩
  rcases h.step_cases hfinishes hs with ⟨k', hfollows, -⟩ | ⟨-, rfl⟩ | ⟨-, -, hfollows, -⟩
  · exact ⟨k', hfollows⟩
  · exact ⟨k, h⟩
  · exact ⟨k, hfollows⟩

theorem Over.step (h : Over isDone x) (hs : step read isDone limits process e x = some x') :
    Over isDone x' := by
  obtain ⟨hresult, hdone⟩ := h
  cases e with
  | send =>
    obtain ⟨sending, hgo, -⟩ := Option.map_eq_some_iff.1 hs
    rw [Sending.go_eq_none hresult] at hgo
    cases hgo
  | rest =>
    obtain ⟨sending, hrest, -⟩ := Option.map_eq_some_iff.1 hs
    rw [Sending.rest_eq_none hresult] at hrest
    cases hrest
  | take =>
    obtain ⟨sending, htake, rfl⟩ := Option.map_eq_some_iff.1 hs
    rw [Sending.take] at htake
    split at htake
    · cases htake
    · obtain ⟨m, -, rfl⟩ := Option.map_eq_some_iff.1 htake
      exact ⟨hresult, hdone⟩
  | close =>
    rw [Exchange.step] at hs
    split at hs
    · obtain rfl := Option.some.inj hs
      exact ⟨hresult, hdone⟩
    · cases hs
  | serve =>
    obtain ⟨serving, -, rfl⟩ := Option.map_eq_some_iff.1 hs
    exact ⟨hresult, hdone⟩
  | receive =>
    rw [Exchange.step, if_pos hdone] at hs
    cases hs
  | quit => cases hs
  | expire => cases hs
  | stop => cases hs

/-- Under a fair schedule an exchange ends, and stays at its end. -/
theorem exists_over (hfinishes : Finishes read isDone start out)
    (h : Follows read isDone limits process ms out start k x) {schedule : Nat → Step}
    (hfair : Fair schedule) :
    ∃ n, ∀ m, n ≤ m → Over isDone (runFor (step read isDone limits process) schedule x m) := by
  obtain ⟨n, -, hover⟩ := (progress hfinishes).exists_over_of_fair (n := 0) hfair ⟨k, h, rfl⟩
  exact ⟨n, fun m hm ↦ runFor_of_le (fun _ _ _ hs h ↦ h.step hs) hm hover⟩

end Exchange

end CallCheck.Worker

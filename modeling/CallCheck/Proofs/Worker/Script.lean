import CallCheck.Proofs.Worker.Conversing
import CallCheck.Worker.ServerStream
import Mathlib.Data.List.Basic

/-!
# What a stream of replies comes to

A server that answers one message sends what its script says, however far it has got. The receiving
loop goes through the messages of the script and ends with the first that is the last one wanted:
the interceptor ends the stream on it or fails, or with it there are enough. If no message is, the
loop goes on to the end of the script.

The state of the loop is a function of the messages received so far (`ServerStream.midway`), so
every arrival is one equation, and `ServerStream.Holds` says which of these states the loop is in.

## Main statement

* `ServerStream.run_script`: what the interceptor has been shown, and what the call comes to.
-/

namespace CallCheck.Worker

open Call (Error Limits Status)
open Session (Metadata Outcome)

variable {ι α β σ : Type}

theorem runSchedule_induction_of_mem {S : Type} {step : Step → S → Option S} {P : S → Prop}
    {schedule : List Step} (keeps : ∀ e ∈ schedule, ∀ s s', step e s = some s' → P s → P s')
    {start : S} (h : P start) : P (runSchedule step schedule start) := by
  induction schedule generalizing start with
  | nil => exact h
  | cons e rest ih =>
    obtain ⟨hfirst, hrest⟩ := List.forall_mem_cons.1 keeps
    rw [runSchedule_cons]
    apply ih hrest
    cases hs : step e start with
    | none => exact h
    | some s' => exact hfirst start s' hs h

/-! ## The script of a server -/

section Sends

variable {process : Process α β σ} {st : σ} {request : List α}

/-- What a server sends in so many moves, given what is left to be read. -/
def sends (process : Process α β σ) : Nat → σ → List α → List (Arrival β)
  | 0, _, _ => []
  | moves + 1, st, request =>
    match process st with
    | .read next => sends process moves (next request.head?) request.tail
    | .greet headers next => .headers headers :: sends process moves next request
    | .write m next => .message m :: sends process moves next request
    | .finish fault => [.ended fault]

theorem sends_mono (moves more : Nat) :
    sends process moves st request <+: sends process (moves + more) st request := by
  induction moves generalizing st request with
  | zero => exact List.nil_prefix
  | succ moves ih =>
    rw [Nat.succ_add, sends, sends]
    cases process st with
    | read next => exact ih
    | greet headers next => exact (List.prefix_cons_inj _).2 ih
    | write m next => exact (List.prefix_cons_inj _).2 ih
    | finish fault => exact List.prefix_refl _

/-- What a server has still to send. -/
def Serving.remains (process : Process α β σ) (request : List α) (s : Serving β σ) (moves : Nat) :
    List (Arrival β) :=
  s.state.elim [] fun st ↦ sends process moves st (request.drop s.heard)

/-- A server is part of the way through its script. -/
def Serving.Recites (process : Process α β σ) (request : List α) (start : σ) (s : Serving β σ) :
    Prop :=
  ∃ made, ∀ moves, sends process (made + moves) start request =
    s.answer.written ++ s.remains process request moves

theorem Serving.Recites.start (process : Process α β σ) (request : List α) (start : σ) :
    Serving.Recites process request start { state := some start } :=
  ⟨0, fun moves ↦ congrArg (sends process · start request) (Nat.zero_add moves)⟩

theorem Serving.Recites.serves {start : σ} {whole : Bool} {s s' : Serving β σ}
    (h : s.Recites process request start) (hs : Serves process request whole s s') :
    s'.Recites process request start := by
  obtain ⟨made, hmade⟩ := h
  -- What was still to be sent is, after one of its moves, what is sent and what is still to come.
  refine ⟨made + 1, fun moves ↦ ?_⟩
  rw [Nat.add_assoc, Nat.add_comm 1 moves, hmade]
  cases hs with
  | @hear st next m hst hmove hget =>
    have hhead : (request.drop s.heard).head? = some m := List.head?_drop.trans hget
    simp only [remains, hst, Option.elim_some, sends, hmove, hhead, List.tail_drop]
  | @hearEnd st next hst hmove hget _ =>
    have hnil : request.drop s.heard = [] :=
      List.drop_eq_nil_of_le (List.getElem?_eq_none_iff.1 hget)
    simp only [remains, hst, Option.elim_some, sends, hmove, hnil, List.head?_nil, List.tail_nil]
  | @say st next a hst hsay =>
    rw [remains, remains, hst, Option.elim_some, Option.elim_some, Pipe.written_put,
      List.append_assoc]
    congr 1
    cases hsay with
    | headers hmove => rw [sends, hmove]; rfl
    | message hmove => rw [sends, hmove]; rfl
  | @finish st fault hst hmove =>
    rw [remains, remains, hst, Option.elim_some, Option.elim_none, Pipe.written_put, sends, hmove,
      List.append_nil]

end Sends

/-! ## What an interceptor makes of messages -/

namespace Interceptor

/-- The state of an interceptor that has been shown messages. -/
def after (intercept : Interceptor ι β) (watch : ι) (ms : List β) : ι :=
  ms.foldl (fun watch m ↦ (intercept watch (.ok m)).2) watch

/-- What an interceptor answers when it is shown one thing more. -/
def answer (intercept : Interceptor ι β) (watch : ι) (ms : List β) (item : Except Status β) :
    Except Error Verdict :=
  (intercept (intercept.after watch ms) item).1

variable {intercept : Interceptor ι β} {watch : ι}

theorem after_concat (ms : List β) (m : β) :
    intercept.after watch (ms ++ [m]) = (intercept (intercept.after watch ms) (.ok m)).2 := by
  rw [after, List.foldl_append]
  rfl

/-- With a record an interceptor makes the same of messages, and the record has all of them. -/
theorem after_recorded (intercept : Interceptor ι β) (watch : ι) (record : Record β) (ms : List β) :
    (intercept.recorded.after (watch, record) ms).1 = intercept.after watch ms ∧
      (intercept.recorded.after (watch, record) ms).2.map Prod.fst =
        record.map Prod.fst ++ ms.map .ok := by
  induction ms generalizing watch record with
  | nil => exact ⟨rfl, (List.append_nil _).symm⟩
  | cons m ms ih =>
    obtain ⟨hafter, hrecord⟩ := ih (intercept watch (.ok m)).2
      (record ++ [(.ok m, (intercept watch (.ok m)).1)])
    refine ⟨hafter, hrecord.trans ?_⟩
    rw [List.map_append, List.append_assoc]
    rfl

theorem answer_recorded (record : Record β) (ms : List β) (item : Except Status β) :
    intercept.recorded.answer (watch, record) ms item = intercept.answer watch ms item := by
  have hafter := (after_recorded intercept watch record ms).1
  rw [answer, answer, ← hafter]
  rfl

/-- After some messages another one is the last one wanted: the interceptor ends the stream on it or
fails, or with it there are enough. -/
def Ends (intercept : Interceptor ι β) (watch : ι) (limits : Limits) (ms : List β) (m : β) : Prop :=
  intercept.answer watch ms (.ok m) ≠ .ok .proceed ∨ limits.messages = some (ms.length + 1)

theorem ends_recorded {limits : Limits} {record : Record β} {ms : List β} {m : β} :
    intercept.recorded.Ends (watch, record) limits ms m ↔ intercept.Ends watch limits ms m := by
  rw [Ends, Ends, answer_recorded]

/-- No message is the last one wanted. -/
def GoesOn (intercept : Interceptor ι β) (watch : ι) (limits : Limits) (ms : List β) : Prop :=
  ∀ before m after, ms = before ++ m :: after → ¬intercept.Ends watch limits before m

variable {limits : Limits} {ms : List β} {m : β}

theorem goesOn_recorded {record : Record β} :
    intercept.recorded.GoesOn (watch, record) limits ms ↔ intercept.GoesOn watch limits ms := by
  simp only [GoesOn, ends_recorded]

theorem GoesOn.nil : intercept.GoesOn watch limits [] := by
  intro before m after h
  simp at h

theorem GoesOn.concat (h : intercept.GoesOn watch limits ms)
    (hm : ¬intercept.Ends watch limits ms m) : intercept.GoesOn watch limits (ms ++ [m]) := by
  intro before m' after hsplit
  rcases List.eq_nil_or_concat after with rfl | ⟨after, last, rfl⟩
  · obtain ⟨rfl, hlast⟩ := List.append_inj' hsplit rfl
    obtain rfl := List.singleton_inj.1 hlast
    exact hm
  · rw [List.concat_eq_append, ← List.cons_append, ← List.append_assoc] at hsplit
    exact h before m' after (List.append_inj' hsplit rfl).1

theorem GoesOn.not_reached (h : intercept.GoesOn watch limits ms) :
    limits.reached ms.length = false := by
  rw [Bool.eq_false_iff]
  intro hreached
  obtain ⟨max, hmax, hpos, hle⟩ := (limits.reached_iff _).1 hreached
  obtain ⟨n, rfl⟩ := Nat.exists_eq_add_one.2 hpos
  -- The message with which there are enough is among them.
  have hsplit : ms = ms.take n ++ ms[n] :: ms.drop (n + 1) := by
    rw [List.getElem_cons_drop, List.take_append_drop]
  refine h _ _ _ hsplit (.inr ?_)
  rw [hmax, List.length_take, Nat.min_eq_left (Nat.le_of_succ_le hle)]

/-- The limit ends the stream with the message that is enough. -/
theorem GoesOn.reached_iff (h : intercept.GoesOn watch limits ms) :
    limits.reached (ms.length + 1) = true ↔ limits.messages = some (ms.length + 1) := by
  have hnot := h.not_reached
  constructor
  · intro hreached
    obtain ⟨max, hmax, hpos, hle⟩ := (limits.reached_iff _).1 hreached
    rw [limits.reached_eq_decide hmax hpos, decide_eq_false_iff_not] at hnot
    rw [hmax, Nat.le_antisymm hle (Nat.lt_of_not_le hnot)]
  · intro hmessages
    exact (limits.reached_iff _).2 ⟨_, hmessages, Nat.succ_pos _, Nat.le_refl _⟩

theorem GoesOn.not_isPrefix (h : intercept.GoesOn watch limits ms) {before : List β}
    (hm : intercept.Ends watch limits before m) : ¬before ++ [m] <+: ms := by
  rintro ⟨after, rfl⟩
  rw [List.append_assoc] at h
  exact h before m after rfl hm

/-- Of two lists that begin alike, the messages up to the last one wanted are the same. -/
theorem GoesOn.unique {ms' all : List β} {m' : β} (h : intercept.GoesOn watch limits ms)
    (hm : intercept.Ends watch limits ms m) (h' : intercept.GoesOn watch limits ms')
    (hm' : intercept.Ends watch limits ms' m') (hall : ms ++ [m] <+: all)
    (hall' : ms' ++ [m'] <+: all) : ms' ++ [m'] = ms ++ [m] := by
  rcases List.prefix_or_prefix_of_prefix hall hall' with hle | hle
  · rcases List.prefix_concat_iff.1 hle with heq | hbefore
    · exact heq.symm
    · exact absurd hbefore (h'.not_isPrefix hm)
  · rcases List.prefix_concat_iff.1 hle with heq | hbefore
    · exact heq
    · exact absurd hbefore (h.not_isPrefix hm')

end Interceptor

/-! ## A status at the end -/

namespace Receiving

/-- What a status comes to, by what the interceptor answers to it. -/
def excused (status : Status) : Except Error Verdict → Except Error Unit
  | .ok .endStream => .ok ()
  | .ok .proceed => .error (.status status)
  | .error e => .error e

theorem excused_eq_error_iff {status : Status} {answer : Except Error Verdict} {e : Error} :
    excused status answer = .error e ↔
      answer = .error e ∨ (answer = .ok .proceed ∧ e = .status status) := by
  rcases answer with e' | (- | -)
  · simp [excused]
  · simp [excused, eq_comm]
  · simp [excused]

theorem fail_eq (intercept : Interceptor ι β) (r : Receiving ι β) (status : Status) :
    r.fail intercept status =
      { r with
        watch := (intercept r.watch (.error status)).2
        phase := .finished (excused status (intercept r.watch (.error status)).1) } := by
  rw [fail]
  rcases intercept r.watch (.error status) with ⟨answer, watch'⟩
  rcases answer with e | verdict
  · rfl
  · cases verdict <;> rfl

end Receiving

/-! ## The loop midway and at its end -/

namespace ServerStream

/-- The receiving loop when it has received headers and some messages, and goes on. -/
def midway (intercept : Interceptor ι β) (watch : ι) (headers : Metadata) (ms : List β) :
    Receiving ι β where
  watch := intercept.after watch ms
  phase := .reading
  received := ms.length
  last := ms.getLast?
  headers

/-- What the end of the call comes to after some messages. -/
def concluded (intercept : Interceptor ι β) (watch : ι) (ms : List β) :
    Option Status → Except Error Unit
  | none => .ok ()
  | some status => Receiving.excused status (intercept.answer watch ms (.error status))

/-- The receiving loop when it has received headers and some messages, and then the end of the
call. A status is shown to the interceptor. -/
def atEnd (intercept : Interceptor ι β) (watch : ι) (headers : Metadata) (ms : List β)
    (fault : Option Status) : Receiving ι β where
  watch := fault.elim (intercept.after watch ms) fun status ↦
    (intercept (intercept.after watch ms) (.error status)).2
  phase := .finished (concluded intercept watch ms fault)
  received := ms.length
  last := ms.getLast?
  headers

/-- The receiving loop when it has received headers, some messages and the last one wanted. -/
def atLast (intercept : Interceptor ι β) (watch : ι) (headers : Metadata) (ms : List β) (m : β) :
    Receiving ι β :=
  (midway intercept watch headers (ms ++ [m])).finish
    ((intercept.answer watch ms (.ok m)).map fun _ ↦ ())

variable {intercept : Interceptor ι β} {watch : ι} {limits : Limits} {headers : Metadata}
  {ms : List β} {m : β}

theorem arrive_message (intercept : Interceptor ι β) (watch : ι) (headers : Metadata)
    (ms : List β) (m : β) :
    (midway intercept watch headers ms).arrive intercept (.message m) =
      match intercept.answer watch ms (.ok m) with
      | .ok verdict => (verdict, midway intercept watch headers (ms ++ [m]))
      | .error e => (.proceed, (midway intercept watch headers (ms ++ [m])).finish (.error e)) := by
  have hnext : midway intercept watch headers (ms ++ [m]) =
      { midway intercept watch headers ms with
        watch := (intercept (intercept.after watch ms) (.ok m)).2
        received := ms.length + 1
        last := some m } := by
    rw [midway, Interceptor.after_concat, List.length_append, List.getLast?_concat]
    rfl
  have harrive : (midway intercept watch headers ms).arrive intercept (.message m) =
      (midway intercept watch headers ms).accept intercept m := rfl
  have hwatch : (midway intercept watch headers ms).watch = intercept.after watch ms := rfl
  rw [hnext, harrive, Interceptor.answer, Receiving.accept, hwatch]
  rcases intercept (intercept.after watch ms) (.ok m) with ⟨answer, watch'⟩
  cases answer <;> rfl

theorem receive_last (h : intercept.GoesOn watch limits ms)
    (hm : intercept.Ends watch limits ms m) :
    receive intercept limits (midway intercept watch headers ms) (.message m) =
      atLast intercept watch headers ms m := by
  rw [receive, arrive_message, atLast]
  cases hanswer : intercept.answer watch ms (.ok m) with
  | error e => rfl
  | ok verdict =>
    have hends : (decide (verdict = .endStream) || limits.reached (ms ++ [m]).length) = true := by
      rw [List.length_append, List.length_singleton, Bool.or_eq_true, decide_eq_true_iff,
        h.reached_iff]
      refine hm.imp_left fun hne ↦ ?_
      cases verdict with
      | proceed => exact absurd hanswer hne
      | endStream => rfl
    exact if_pos hends

theorem receive_message (h : intercept.GoesOn watch limits ms)
    (hm : ¬intercept.Ends watch limits ms m) :
    receive intercept limits (midway intercept watch headers ms) (.message m) =
      midway intercept watch headers (ms ++ [m]) := by
  rw [Interceptor.Ends, not_or, Ne, Classical.not_not] at hm
  have hnot : limits.reached (ms ++ [m]).length = false := by
    rw [List.length_append, List.length_singleton, Bool.eq_false_iff, Ne, h.reached_iff]
    exact hm.2
  rw [receive, arrive_message, hm.1]
  simp only [midway, hnot]
  rfl

theorem receive_headers (h : intercept.GoesOn watch limits ms) (more : Metadata) :
    receive intercept limits (midway intercept watch headers ms) (.headers more) =
      midway intercept watch headers ms := by
  have hnot := h.not_reached
  simp only [receive, Receiving.arrive, midway, hnot]
  rfl

theorem receive_ended (fault : Option Status) :
    receive intercept limits (midway intercept watch headers ms) (.ended fault) =
      atEnd intercept watch headers ms fault := by
  cases fault with
  | none => rfl
  | some status =>
    have harrive : (midway intercept watch headers ms).arrive intercept (.ended (some status)) =
        (.proceed, atEnd intercept watch headers ms (some status)) :=
      congrArg (Verdict.proceed, ·) (Receiving.fail_eq intercept _ status)
    rw [receive, harrive]
    rfl

theorem receive_first (headers : Metadata) :
    receive intercept limits { watch } (.headers headers) =
      midway intercept watch headers ([] : List β) := by
  have hnot := limits.reached_zero
  simp only [receive, Receiving.arrive, Receiving.begin, hnot]
  rfl

/-! ## What the loop has heard -/

/-- Where a receiving loop is by what it has heard, if the first that arrives are headers. -/
inductive Holds (intercept : Interceptor ι β) (watch : ι) (limits : Limits) (headers : Metadata) :
    List (Arrival β) → Receiving ι β → Prop
  /-- Nothing has arrived yet. -/
  | opening : Holds intercept watch limits headers [] { watch }
  /-- There have been headers, and messages of which none is the last one wanted. -/
  | reading {heard : List (Arrival β)} : intercept.GoesOn watch limits (messagesOf heard) →
      Holds intercept watch limits headers (.headers headers :: heard)
        (midway intercept watch headers (messagesOf heard))
  /-- There has been the last message wanted. -/
  | last {heard : List (Arrival β)} {m : β} : intercept.GoesOn watch limits (messagesOf heard) →
      intercept.Ends watch limits (messagesOf heard) m →
      Holds intercept watch limits headers (.headers headers :: (heard ++ [.message m]))
        (atLast intercept watch headers (messagesOf heard) m)
  /-- There has been the end of the call, and before it no message was the last one wanted. -/
  | ended {heard : List (Arrival β)} {fault : Option Status} :
      intercept.GoesOn watch limits (messagesOf heard) →
      Holds intercept watch limits headers (.headers headers :: (heard ++ [.ended fault]))
        (atEnd intercept watch headers (messagesOf heard) fault)

/-- **Step lemma.** A loop that has not ended hears what arrives. -/
theorem Holds.receive {heard : List (Arrival β)} {r : Receiving ι β}
    (h : Holds intercept watch limits headers heard r) (hnone : r.result? = none) {a : Arrival β}
    (hfirst : (heard ++ [a]).head? = some (.headers headers)) :
    Holds intercept watch limits headers (heard ++ [a])
      (ServerStream.receive intercept limits r a) := by
  cases h with
  | opening =>
    obtain rfl : a = .headers headers := Option.some.inj hfirst
    rw [receive_first]
    exact .reading .nil
  | @reading heard hgoes =>
    rw [List.cons_append]
    cases a with
    | headers more =>
      rw [receive_headers hgoes]
      have hmessages : messagesOf (heard ++ [.headers more]) = messagesOf heard := by
        rw [messagesOf_append]
        exact List.append_nil _
      rw [← hmessages] at hgoes ⊢
      exact .reading hgoes
    | message m =>
      by_cases hm : intercept.Ends watch limits (messagesOf heard) m
      · rw [receive_last hgoes hm]
        exact .last hgoes hm
      · rw [receive_message hgoes hm]
        have hmessages : messagesOf (heard ++ [.message m]) = messagesOf heard ++ [m] :=
          messagesOf_append heard [.message m]
        have hmore := hgoes.concat hm
        rw [← hmessages] at hmore ⊢
        exact .reading hmore
    | ended fault =>
      rw [receive_ended]
      exact .ended hgoes
  | last => cases hnone
  | ended => cases hnone

/-! ## Every schedule -/

/-- The call without the record of its interceptor. -/
def forget (c : ServerStream (ι × Record β) β σ) : ServerStream ι β σ :=
  ⟨c.serving, c.receiving.forget, c.ended, c.stopped⟩

theorem forget_receive (intercept : Interceptor ι β) (limits : Limits)
    (r : Receiving (ι × Record β) β) (a : Arrival β) :
    (ServerStream.receive intercept.recorded limits r a).forget =
      ServerStream.receive intercept limits r.forget a := by
  rw [ServerStream.receive, ServerStream.receive, Receiving.arrive_forget]
  rcases r.arrive intercept.recorded a with ⟨verdict, ⟨⟨watch, record⟩, phase, received, last, hs⟩⟩
  cases phase with
  | opening => rfl
  | finished result => rfl
  | reading => exact apply_ite Receiving.forget _ _ _

variable {process : Process α β σ} {request : α} {start : σ}

theorem step_receive_eq (intercept : Interceptor ι β) (limits : Limits) (process : Process α β σ)
    (request : α) (c : ServerStream ι β σ) :
    step intercept limits process request .receive c =
      if c.receiving.takes c.ended then
        c.serving.deliver.map fun (a, serving) ↦
          { c with serving, receiving := ServerStream.receive intercept limits c.receiving a }
      else none := by
  rw [step, Receiving.takes]
  cases c.receiving.phase with
  | finished result => rfl
  | opening => simp only [Bool.and_false, Bool.false_eq_true, if_false, if_true]
  | reading => cases c.ended <;> rfl

theorem forget_step (e : Step) (c : ServerStream (ι × Record β) β σ) :
    (step intercept.recorded limits process request e c).map forget =
      step intercept limits process request e c.forget := by
  cases e with
  | serve =>
    rw [step, step, Option.map_map]
    rfl
  | receive =>
    have hreceive (delivered : Arrival β × Serving β σ) :
        forget { c with
          serving := delivered.2
          receiving := ServerStream.receive intercept.recorded limits c.receiving delivered.1 } =
        { c.forget with
          serving := delivered.2
          receiving := ServerStream.receive intercept limits c.forget.receiving delivered.1 } := by
      rw [forget, forget_receive]
      rfl
    have hdeliver := congrArg (c.serving.deliver.map ·) (funext hreceive)
    rw [step_receive_eq, step_receive_eq, apply_ite (Option.map forget), Option.map_map]
    exact ite_congr rfl (fun _ ↦ hdeliver) fun _ ↦ rfl
  | quit =>
    rw [step, step, apply_ite (Option.map forget)]
    rfl
  | expire =>
    rw [step, step, apply_ite (Option.map forget)]
    rfl
  | stop =>
    rw [step, step, apply_ite (Option.map forget)]
    rfl
  | _ => rfl

/-- Without the record the call is the call with the interceptor itself. -/
theorem run_recorded (schedule : List Step) :
    (run intercept.recorded limits process request (watch, []) start schedule).forget =
      run intercept limits process request watch start schedule :=
  runSchedule_map forget_step schedule _

theorem step_receive {c c' : ServerStream ι β σ}
    (hs : step intercept limits process request .receive c = some c') :
    c.receiving.result? = none ∧ ∃ a serving, c.serving.deliver = some (a, serving) ∧
      c' = { c with
        serving
        receiving := ServerStream.receive intercept limits c.receiving a } := by
  rw [step_receive_eq, Option.ite_none_right_eq_some] at hs
  obtain ⟨htakes, hs⟩ := hs
  obtain ⟨⟨a, serving⟩, hdeliver, rfl⟩ := Option.map_eq_some_iff.1 hs
  exact ⟨Receiving.result?_eq_none_of_takes htakes, a, serving, hdeliver, rfl⟩

/-- A call that has not been told to end, with a server that is part of the way through its
script. -/
structure Streams (intercept : Interceptor ι β) (watch : ι) (limits : Limits)
    (process : Process α β σ) (request : α) (start : σ) (c : ServerStream ι β σ) : Prop where
  /-- The server sends nothing after the end of the call. -/
  orderly : c.serving.Orderly
  /-- What the server has sent is of its script. -/
  recites : c.serving.Recites process [request] start
  /-- The loop has heard what has been delivered. -/
  holds : ∀ headers, (∀ a, c.serving.answer.passed.head? = some a → a = .headers headers) →
    Holds intercept watch limits headers c.serving.answer.passed c.receiving
  /-- Nothing has told the loop to end. -/
  goes_on : c.ended = false

/-- **Step lemma.** A step that is no stop keeps this, if the time of the stream is not limited. -/
theorem Streams.step (hduration : limits.duration = none) {e : Step} (he : e ≠ .stop)
    {c c' : ServerStream ι β σ} (h : Streams intercept watch limits process request start c)
    (hs : ServerStream.step intercept limits process request e c = some c') :
    Streams intercept watch limits process request start c' := by
  cases e with
  | serve =>
    obtain ⟨serving, hserve, rfl⟩ := Option.map_eq_some_iff.1 hs
    have hserves := Serving.serves_of_step hserve
    have hpassed := (Serving.grows_of_serves hserves).passed_eq h.orderly.taken_le
    refine ⟨h.orderly.serves hserves, h.recites.serves hserves, fun headers hfirst ↦ ?_, h.goes_on⟩
    dsimp only at hfirst ⊢
    rw [hpassed] at hfirst ⊢
    exact h.holds headers hfirst
  | receive =>
    obtain ⟨hnone, a, serving, hdeliver, rfl⟩ := step_receive hs
    obtain ⟨horderly, hpassed⟩ := h.orderly.deliver hdeliver
    refine ⟨horderly, ?_, fun headers hfirst ↦ ?_, h.goes_on⟩
    · obtain ⟨b, -, heq⟩ := Option.map_eq_some_iff.1 hdeliver
      obtain ⟨-, rfl⟩ := Prod.mk.inj heq
      exact h.recites
    · dsimp only at hfirst ⊢
      rw [hpassed] at hfirst ⊢
      -- The first of all that arrives is the first of what has arrived before, if there was any.
      have hbefore : ∀ b, c.serving.answer.passed.head? = some b → b = .headers headers := by
        intro b hb
        refine hfirst b ?_
        rw [List.head?_append, hb, Option.some_or]
      refine (h.holds headers hbefore).receive hnone ?_
      cases hhead : (c.serving.answer.passed ++ [a]).head? with
      | none => simp at hhead
      | some b => rw [hfirst b hhead]
  | quit =>
    rw [ServerStream.step, h.goes_on] at hs
    cases hs
  | expire =>
    rw [ServerStream.step, hduration] at hs
    cases hs
  | stop => exact absurd rfl he
  | _ => cases hs

/-- **Run lemma.** Without a stop, and without a limit to its time, the call streams. -/
theorem streams_run (hduration : limits.duration = none) {schedule : List Step}
    (hstop : .stop ∉ schedule) : Streams intercept watch limits process request start
      (run intercept limits process request watch start schedule) := by
  refine runSchedule_induction_of_mem ?_
    ⟨.start start, .start process [request] start, fun headers _ ↦ .opening, rfl⟩
  intro e he c c' hs h
  refine h.step hduration ?_ hs
  rintro rfl
  exact hstop he

/-- What a call reports that has received headers and messages. -/
def report (headers : Metadata) (ms : List β) : Outcome β where
  sent := 1
  received := ms.length
  response := ms.getLast?
  headers

/-! ### What has been shown -/

theorem shown_atLast (headers : Metadata) (ms : List β) (m : β) :
    (atLast intercept.recorded (watch, []) headers ms m).watch.2.map Prod.fst =
      (ms ++ [m]).map .ok :=
  (Interceptor.after_recorded intercept watch [] (ms ++ [m])).2

theorem shown_atEnd (headers : Metadata) (ms : List β) (fault : Option Status) :
    (atEnd intercept.recorded (watch, []) headers ms fault).watch.2.map Prod.fst =
      ms.map .ok ++ (fault.map .error).toList := by
  have hshown : (intercept.recorded.after (watch, []) ms).2.map Prod.fst = ms.map .ok :=
    (Interceptor.after_recorded intercept watch [] ms).2
  cases fault with
  | none => exact hshown.trans (List.append_nil _).symm
  | some status =>
    have hwatch : (atEnd intercept.recorded (watch, []) headers ms (some status)).watch.2 =
        (intercept.recorded.after (watch, []) ms).2 ++
          [(.error status, intercept.recorded.answer (watch, []) ms (.error status))] := rfl
    rw [hwatch, List.map_append, hshown]
    rfl

theorem concluded_recorded (intercept : Interceptor ι β) (watch : ι) (ms : List β)
    (fault : Option Status) :
    concluded intercept.recorded (watch, []) ms fault = concluded intercept watch ms fault := by
  cases fault with
  | none => rfl
  | some status => rw [concluded, concluded, Interceptor.answer_recorded]

section Ended

variable {c : ServerStream (ι × Record β) β σ} {heard : List (Arrival β)} {moves : Nat}

theorem Streams.exists_script
    (h : Streams intercept.recorded (watch, []) limits process request start c) :
    ∃ made, ∀ moves,
      messagesOf c.serving.answer.passed <+:
          messagesOf (sends process (made + moves) start [request]) ∧
        messagesOf (sends process moves start [request]) <+:
          messagesOf (sends process (made + moves) start [request]) := by
  obtain ⟨made, hmade⟩ := h.recites
  refine ⟨made, fun moves ↦ ⟨List.IsPrefix.filterMap _ ?_, List.IsPrefix.filterMap _ ?_⟩⟩
  · exact (Pipe.passed_prefix _).trans ⟨_, (hmade moves).symm⟩
  · rw [Nat.add_comm]
    exact sends_mono moves made

theorem Streams.exists_script_eq
    (h : Streams intercept.recorded (watch, []) limits process request start c)
    {fault : Option Status} (hended : .ended fault ∈ c.serving.answer.passed) :
    ∃ made, ∀ moves, sends process (made + moves) start [request] = c.serving.answer.passed := by
  obtain ⟨made, hmade⟩ := h.recites
  have hpassed := h.orderly.passed_eq_of_ended hended
  -- A server that has sent the end has nothing left to send.
  have hstate : c.serving.state = none := by
    rw [← Option.not_isSome_iff_eq_none]
    intro hsome
    exact h.orderly.not_ended hsome fault (hpassed ▸ hended)
  refine ⟨made, fun moves ↦ ?_⟩
  rw [hmade, hpassed, Serving.remains, hstate]
  exact List.append_nil _

theorem Streams.of_last
    (h : Streams intercept.recorded (watch, []) limits process request start c)
    {ms : List β} {m : β} (hmessages : messagesOf c.serving.answer.passed = ms ++ [m])
    (hgoes : intercept.GoesOn watch limits ms) (hends : intercept.Ends watch limits ms m) :
    (∀ moves before last,
      before ++ [last] <+: messagesOf (sends process moves start [request]) →
      intercept.GoesOn watch limits before → intercept.Ends watch limits before last →
        before = ms ∧ last = m) ∧
      ∃ moves, ¬intercept.GoesOn watch limits
        (messagesOf (sends process moves start [request])) := by
  obtain ⟨made, hmade⟩ := h.exists_script
  rw [hmessages] at hmade
  constructor
  · intro moves before last hbegins hbefore hlast
    have heq := hgoes.unique hends hbefore hlast (hmade moves).1 (hbegins.trans (hmade moves).2)
    obtain ⟨hinit, hsingle⟩ := List.append_inj' heq rfl
    exact ⟨hinit, List.singleton_inj.1 hsingle⟩
  · exact ⟨made + 0, fun hall ↦ hall.not_isPrefix hends (hmade 0).1⟩

theorem Streams.of_ended
    (h : Streams intercept.recorded (watch, []) limits process request start c)
    {fault : Option Status} (hended : .ended fault ∈ c.serving.answer.passed)
    (hgoes : intercept.GoesOn watch limits (messagesOf c.serving.answer.passed)) :
    (∃ moves, sends process moves start [request] = c.serving.answer.passed) ∧
      ∀ moves before last,
        before ++ [last] <+: messagesOf (sends process moves start [request]) →
          ¬intercept.Ends watch limits before last := by
  obtain ⟨made, hmade⟩ := h.exists_script_eq hended
  refine ⟨⟨made + 0, hmade 0⟩, fun moves before last hbegins hends ↦ hgoes.not_isPrefix hends ?_⟩
  rw [← hmade moves, Nat.add_comm]
  exact hbegins.trans ((sends_mono moves made).filterMap _)

end Ended

/-- **A stream of replies.** For every server and its script, every interceptor and every limit,
under every schedule without a stop and without a limit to the time: if the call has ended after
headers have arrived, then

* if there is a message in the script that is the last one wanted, the interceptor has been shown
  the messages up to the first such, each once and in order, and nothing else, and the call comes to
  the error of the interceptor or to a report of these messages;
* otherwise the script has an end, the interceptor has been shown all messages, each once and in
  order, and after them the status, if there is one, and the call comes to a report of all messages,
  to the error of the interceptor or to the status. -/
theorem run_script (intercept : Interceptor ι β) (limits : Limits) (process : Process α β σ)
    (request : α) (watch : ι) (start : σ) (schedule : List Step)
    (hduration : limits.duration = none) (hstop : .stop ∉ schedule) :
    let call := run intercept limits process request watch start schedule
    let recorded := run intercept.recorded limits process request (watch, []) start schedule
    let shown := recorded.receiving.watch.2.map Prod.fst
    let script (moves : Nat) := sends process moves start [request]
    recorded.forget = call ∧
    ∀ headers result, call.serving.answer.passed.head? = some (.headers headers) →
      call.result? = some result →
        (∀ moves before last, before ++ [last] <+: messagesOf (script moves) →
          intercept.GoesOn watch limits before → intercept.Ends watch limits before last →
          shown = (before ++ [last]).map .ok ∧
            result = (intercept.answer watch before (.ok last)).map fun _ ↦
              report headers (before ++ [last])) ∧
        ((∀ moves, intercept.GoesOn watch limits (messagesOf (script moves))) →
          ∃ moves fault, (script moves).getLast? = some (.ended fault) ∧
            shown = (messagesOf (script moves)).map .ok ++ (fault.map .error).toList ∧
            result = (concluded intercept watch (messagesOf (script moves)) fault).map fun () ↦
              report headers (messagesOf (script moves))) := by
  intro call recorded shown script
  have hforget : recorded.forget = call := run_recorded schedule
  refine ⟨hforget, fun headers result hfirst hresult ↦ ?_⟩
  rw [← hforget] at hfirst hresult
  have hstreams : Streams intercept.recorded (watch, []) limits process request start recorded :=
    streams_run hduration hstop
  have hholds := hstreams.holds headers fun a ha ↦ Option.some.inj (ha.symm.trans hfirst)
  have hresult : recorded.receiving.result?.map (fun finished ↦ finished.map fun () ↦
      { sent := 1, received := recorded.receiving.received, response := recorded.receiving.last,
        headers := recorded.receiving.headers }) = some result := hresult
  generalize hheard : recorded.serving.answer.passed = heard at hholds
  change (∀ moves before last, _ → _ → _ → recorded.receiving.watch.2.map Prod.fst = _ ∧ _) ∧
    (_ → ∃ moves fault, _ ∧ recorded.receiving.watch.2.map Prod.fst = _ ∧ _)
  generalize recorded.receiving = r at hholds hresult ⊢
  -- The loop has ended with the last message wanted, or with the end of the call.
  cases hholds with
  | opening => cases hresult
  | reading => cases hresult
  | @last rest m hgoes hends =>
    rw [Interceptor.goesOn_recorded] at hgoes
    rw [Interceptor.ends_recorded] at hends
    have hmessages : messagesOf recorded.serving.answer.passed = messagesOf rest ++ [m] := by
      rw [hheard]
      exact messagesOf_append rest [.message m]
    obtain ⟨hsame, moves, hnot⟩ := hstreams.of_last hmessages hgoes hends
    refine ⟨fun moves before last hbegins hbefore hlast ↦ ?_, fun hall ↦ absurd (hall moves) hnot⟩
    obtain ⟨rfl, rfl⟩ := hsame moves before last hbegins hbefore hlast
    refine ⟨shown_atLast headers _ last, ?_⟩
    rw [atLast, Interceptor.answer_recorded] at hresult
    rw [← Option.some.inj hresult]
    cases intercept.answer watch (messagesOf rest) (.ok last) with
    | error e => rfl
    | ok verdict => rfl
  | @ended rest fault hgoes =>
    rw [Interceptor.goesOn_recorded] at hgoes
    -- All of the script has been delivered.
    have hended : .ended fault ∈ recorded.serving.answer.passed := by
      rw [hheard]
      exact List.mem_cons_of_mem _ List.mem_concat_self
    have hmessages : messagesOf recorded.serving.answer.passed = messagesOf rest := by
      rw [hheard]
      exact (messagesOf_append rest [.ended fault]).trans (List.append_nil _)
    rw [← hmessages] at hgoes hresult ⊢
    obtain ⟨⟨moves, hmoves⟩, hnot⟩ := hstreams.of_ended hended hgoes
    refine ⟨fun moves before last hbegins _ hlast ↦ absurd hlast (hnot moves before last hbegins),
      fun _ ↦ ⟨moves, fault, ?_, ?_, ?_⟩⟩
    · have hlast : recorded.serving.answer.passed.getLast? = some (.ended fault) := by
        rw [hheard, ← List.cons_append, List.getLast?_concat]
      rw [← hlast]
      exact congrArg List.getLast? hmoves
    · rw [show script moves = recorded.serving.answer.passed from hmoves]
      exact shown_atEnd headers _ fault
    · rw [← Option.some.inj hresult, ← concluded_recorded intercept watch]
      rw [show script moves = recorded.serving.answer.passed from hmoves]
      rfl

/-- An interceptor that counts takes the second of three messages for the end, before the limit of
three is reached. -/
theorem run_script_second :
    let intercept : Interceptor Nat Nat := fun count _ ↦
      (.ok (if count = 1 then .endStream else .proceed), count + 1)
    let process : Process Unit Nat Nat := fun turn ↦
      if turn = 0 then .greet [] 1 else if turn = 4 then .finish none else .write turn (turn + 1)
    let schedule : List Step :=
      [.serve, .serve, .receive, .serve, .receive, .serve, .serve, .receive, .receive]
    let limits : Limits := { messages := some 3 }
    limits.duration = none ∧ .stop ∉ schedule ∧
      (run intercept limits process () 0 0 schedule).result? = some (.ok (report [] [1, 2])) ∧
      (run intercept.recorded limits process () (0, []) 0 schedule).receiving.watch.2.map Prod.fst =
        [.ok 1, .ok 2] := by
  intro intercept process schedule limits
  have hduration : limits.duration = none := rfl
  have hstop : .stop ∉ schedule := by decide
  have hresult : (run intercept limits process () 0 0 schedule).result? =
      some (.ok (report [] [1, 2])) := by cbv
  have hheaders : (run intercept limits process () 0 0 schedule).serving.answer.passed.head? =
      some (.headers []) := by cbv
  obtain ⟨-, h⟩ := run_script intercept limits process () 0 0 schedule hduration hstop
  obtain ⟨hlast, -⟩ := h [] _ hheaders hresult
  have hfirst : ¬intercept.Ends 0 limits [] 1 := by
    rintro (hanswer | hmessages)
    · exact hanswer rfl
    · cases hmessages
  have hgoes : intercept.GoesOn 0 limits ([] ++ [1]) := Interceptor.GoesOn.nil.concat hfirst
  have hanswer : intercept.answer 0 ([] ++ [1]) (.ok 2) ≠ .ok .proceed := by
    intro h
    cases h
  have hends : intercept.Ends 0 limits ([] ++ [1]) 2 := .inl hanswer
  have hbegins : [] ++ [1] ++ [2] <+: messagesOf (sends process 5 0 [()]) := by decide
  exact ⟨hduration, hstop, hresult, (hlast 5 ([] ++ [1]) 2 hbegins hgoes hends).1⟩

end ServerStream

end CallCheck.Worker

import CallCheck.Proofs.Worker.Script

/-!
# What replies come to

What a receiving loop fails with is told by what has been delivered and by what the interceptor has
answered (`Receiving.Fails`): the loop keeps neither, but the record of the interceptor does. What
comes of a single reply is told by what has been delivered alone (`Reply.Gives`).

## Main statements

* `Receiving.Judged.arrive`: a loop that has ended has failed just with what makes it fail.
* `Reply.Awaits.arrive`: a reply that is not waited for any more is what has been delivered.
-/

namespace CallCheck.Worker

open Call (Error Status)
open Session (Metadata)

variable {ι β : Type}

theorem headers_ne_ended (headers : Metadata) (fault : Option Status) :
    (.headers headers : Arrival β) ≠ .ended fault := by
  intro h
  cases h

theorem message_ne_ended (m : β) (fault : Option Status) :
    (.message m : Arrival β) ≠ .ended fault := by
  intro h
  cases h

/-! ## A stream of replies -/

namespace Receiving

/-- What a receiving loop fails with: an error of the interceptor, a status that the interceptor
does not take for the end of the stream, or that of a message before the headers. -/
inductive Fails (heard : List (Arrival β)) (record : Record β) : Error → Prop
  | intercepted {item : Except Status β} {e : Error} : (item, .error e) ∈ record →
      Fails heard record e
  | status {status : Status} : .ended (some status) ∈ heard →
      (∀ answer, (.error status, answer) ∈ record → answer = .ok .proceed) →
      Fails heard record (.status status)
  | outOfOrder {m : β} : heard.head? = some (.message m) →
      Fails heard record (.status outOfOrder)

/-- What has been heard and recorded after the headers have arrived, as long as nothing has ended
the call and the interceptor has not failed. -/
structure Calm (heard : List (Arrival β)) (record : Record β) : Prop where
  /-- The headers came first. -/
  head : ∃ headers, heard.head? = some (.headers headers)
  /-- The call has not ended. -/
  not_ended : ∀ fault, .ended fault ∉ heard
  /-- The interceptor has been shown messages and has not failed. -/
  shown : ∀ item ∈ record, ∃ m verdict, item = (.ok m, .ok verdict)

variable {heard : List (Arrival β)} {record more : Record β} {a : Arrival β} {e : Error}

theorem Calm.fails_iff (h : Calm heard record) :
    Fails (heard ++ [a]) (record ++ more) e ↔ (∃ item, (item, .error e) ∈ more) ∨
      ∃ status, a = .ended (some status) ∧ e = .status status ∧
        ∀ answer, (.error status, answer) ∈ more → answer = .ok .proceed := by
  -- Nothing that was heard or recorded before makes the loop fail.
  constructor
  · intro hfails
    cases hfails with
    | @intercepted item _ hmem =>
      rcases List.mem_append.1 hmem with hmem | hmem
      · obtain ⟨m, verdict, heq⟩ := h.shown _ hmem
        cases heq
      · exact .inl ⟨item, hmem⟩
    | @status status hmem hanswer =>
      rcases List.mem_append.1 hmem with hmem | hmem
      · exact absurd hmem (h.not_ended _)
      · refine .inr ⟨status, (List.mem_singleton.1 hmem).symm, rfl, fun answer hanswered ↦ ?_⟩
        exact hanswer answer (List.mem_append_right _ hanswered)
    | outOfOrder hhead =>
      obtain ⟨headers, hheaders⟩ := h.head
      rw [List.head?_append, hheaders] at hhead
      cases hhead
  · rintro (⟨item, hmem⟩ | ⟨status, rfl, rfl, hanswer⟩)
    · exact .intercepted (List.mem_append_right _ hmem)
    · refine .status List.mem_concat_self fun answer hanswered ↦ ?_
      rcases List.mem_append.1 hanswered with hmem | hmem
      · obtain ⟨m, verdict, heq⟩ := h.shown _ hmem
        cases heq
      · exact hanswer answer hmem

theorem Calm.not_fails (h : Calm heard record) : ¬Fails heard record e := by
  intro hfails
  cases hfails with
  | intercepted hmem =>
    obtain ⟨m, verdict, heq⟩ := h.shown _ hmem
    cases heq
  | status hmem => exact h.not_ended _ hmem
  | outOfOrder hhead =>
    obtain ⟨headers, hheaders⟩ := h.head
    rw [hheaders] at hhead
    cases hhead

theorem Calm.concat (h : Calm heard record) (ha : ∀ fault, a ≠ .ended fault)
    (hmore : ∀ item ∈ more, ∃ m verdict, item = (.ok m, .ok verdict)) :
    Calm (heard ++ [a]) (record ++ more) where
  head := by
    obtain ⟨headers, hheaders⟩ := h.head
    exact ⟨headers, by rw [List.head?_append, hheaders, Option.some_or]⟩
  not_ended fault hmem := by
    rcases List.mem_append.1 hmem with hmem | hmem
    · exact h.not_ended fault hmem
    · exact ha fault (List.mem_singleton.1 hmem).symm
  shown := List.forall_mem_append.2 ⟨h.shown, hmore⟩

/-- Where a receiving loop is by what it fails with. -/
def Judged (heard : List (Arrival β)) (r : Receiving (ι × Record β) β) : Prop :=
  match r.phase with
  | .opening => heard = [] ∧ r.watch.2 = []
  | .reading => Calm heard r.watch.2
  | .finished result => ∀ e, Fails heard r.watch.2 e ↔ result = .error e

variable {r : Receiving (ι × Record β) β}

theorem Judged.result_iff (h : Judged heard r) :
    r.result? = some (.error e) ↔ r.result?.isSome ∧ Fails heard r.watch.2 e := by
  rw [Judged] at h
  rw [result?]
  cases hp : r.phase with
  | finished result =>
    rw [hp] at h
    rw [h e]
    exact ⟨fun hresult ↦ ⟨rfl, Option.some.inj hresult⟩, fun hand ↦ congrArg some hand.2⟩
  | opening =>
    exact iff_of_false (Option.some_ne_none _).symm fun hand ↦ Bool.false_ne_true hand.1
  | reading =>
    exact iff_of_false (Option.some_ne_none _).symm fun hand ↦ Bool.false_ne_true hand.1

theorem Judged.not_fails (h : Judged heard r) (hnone : r.result? = none) :
    ¬Fails heard r.watch.2 e := by
  rw [Judged] at h
  rw [result?] at hnone
  cases hp : r.phase with
  | finished result =>
    rw [hp] at hnone
    cases hnone
  | reading =>
    rw [hp] at h
    exact h.not_fails
  | opening =>
    rw [hp] at h
    rw [h.1, h.2]
    intro hfails
    cases hfails with
    | intercepted hmem => cases hmem
    | status hmem => cases hmem
    | outOfOrder hhead => cases hhead

theorem fails_singleton_iff : Fails [a] [] e ↔
    (∃ status, a = .ended (some status) ∧ e = .status status) ∨
      ∃ m, a = .message m ∧ e = .status outOfOrder := by
  constructor
  · intro hfails
    cases hfails with
    | intercepted hmem => cases hmem
    | @status status hmem => exact .inl ⟨status, (List.mem_singleton.1 hmem).symm, rfl⟩
    | @outOfOrder m hhead => exact .inr ⟨m, Option.some.inj hhead, rfl⟩
  · rintro (⟨status, rfl, rfl⟩ | ⟨m, rfl, rfl⟩)
    · exact .status List.mem_cons_self fun answer hmem ↦ absurd hmem List.not_mem_nil
    · exact .outOfOrder rfl

theorem Judged.of_begin (h : r.watch.2 = []) (a : Arrival β) : Judged [a] (r.begin a) := by
  have hwatch : (r.begin a).watch.2 = [] := by
    rcases a with headers | m | (- | status)
    · exact h
    · exact h
    · exact h
    · exact h
  rcases a with headers | m | (- | status)
  · refine ⟨⟨headers, rfl⟩, fun fault hmem ↦ ?_, ?_⟩
    · cases List.mem_singleton.1 hmem
    · rw [hwatch]
      exact List.forall_mem_nil _
  · intro e
    rw [hwatch, fails_singleton_iff]
    constructor
    · rintro (⟨status, hended, -⟩ | ⟨m', -, rfl⟩)
      · cases hended
      · rfl
    · intro heq
      exact .inr ⟨m, rfl, (Except.error.inj heq).symm⟩
  · intro e
    rw [hwatch, fails_singleton_iff]
    apply iff_of_false
    · rintro (⟨status, hended, -⟩ | ⟨m, hmessage, -⟩)
      · cases hended
      · cases hmessage
    · intro heq
      cases heq
  · intro e
    rw [hwatch, fails_singleton_iff]
    constructor
    · rintro (⟨status', hended, rfl⟩ | ⟨m, hmessage, -⟩)
      · cases hended
        rfl
      · cases hmessage
    · intro heq
      exact .inl ⟨status, rfl, (Except.error.inj heq).symm⟩

theorem Judged.of_accept {intercept : Interceptor ι β} (h : Calm heard r.watch.2)
    (hp : r.phase = .reading) (m : β) :
    Judged (heard ++ [.message m]) (r.accept intercept.recorded m).2 := by
  cases hanswer : intercept r.watch.1 (.ok m) with
  | mk answer watch =>
    have hrecorded : intercept.recorded r.watch (.ok m) =
        (answer, (watch, r.watch.2 ++ [(.ok m, answer)])) := by
      rw [Interceptor.recorded, hanswer]
    rw [accept, hrecorded]
    cases answer with
    | error e =>
      intro e'
      change Fails _ (r.watch.2 ++ [(.ok m, .error e)]) e' ↔ _
      rw [h.fails_iff]
      constructor
      · rintro (⟨item, hmem⟩ | ⟨status, hended, -⟩)
        · cases List.mem_singleton.1 hmem
          rfl
        · cases hended
      · intro heq
        rw [← Except.error.inj heq]
        exact .inl ⟨.ok m, List.mem_cons_self⟩
    | ok verdict =>
      dsimp only
      rw [Judged, hp]
      apply h.concat (message_ne_ended m)
      intro item hmem
      exact ⟨m, verdict, List.mem_singleton.1 hmem⟩

theorem Judged.of_fail {intercept : Interceptor ι β} (h : Calm heard r.watch.2) (status : Status) :
    Judged (heard ++ [.ended (some status)]) (r.fail intercept.recorded status) := by
  have hrecorded : intercept.recorded r.watch (.error status) =
      ((intercept r.watch.1 (.error status)).1, ((intercept r.watch.1 (.error status)).2,
        r.watch.2 ++ [(.error status, (intercept r.watch.1 (.error status)).1)])) := rfl
  rw [fail_eq, hrecorded]
  generalize intercept r.watch.1 (.error status) = answered
  intro e
  change Fails _ (r.watch.2 ++ [(.error status, answered.1)]) e ↔
    excused status answered.1 = _
  rw [h.fails_iff, excused_eq_error_iff]
  constructor
  · rintro (⟨item, hmem⟩ | ⟨status', hended, rfl, hproceed⟩)
    · exact .inl (Prod.mk.inj (List.mem_singleton.1 hmem)).2.symm
    · cases hended
      exact .inr ⟨hproceed _ List.mem_cons_self, rfl⟩
  · rintro (herror | ⟨hproceed, rfl⟩)
    · exact .inl ⟨.error status, herror ▸ List.mem_cons_self⟩
    · refine .inr ⟨status, rfl, rfl, fun answer hmem ↦ ?_⟩
      exact (Prod.mk.inj (List.mem_singleton.1 hmem)).2.trans hproceed

/-- **Step lemma.** Whatever arrives, a loop that goes on fails with what makes it fail. -/
theorem Judged.arrive {intercept : Interceptor ι β} (h : Judged heard r)
    (hnone : r.result? = none) (a : Arrival β) :
    Judged (heard ++ [a]) (r.arrive intercept.recorded a).2 := by
  rw [arrive.eq_def]
  rw [Judged] at h
  rw [result?] at hnone
  cases hp : r.phase with
  | finished result =>
    rw [hp] at hnone
    cases hnone
  | opening =>
    rw [hp] at h
    obtain ⟨rfl, hrecord⟩ := h
    exact .of_begin hrecord a
  | reading =>
    rw [hp] at h
    -- The interceptor is shown a message and a status, and nothing else.
    rcases a with headers | m | (- | status)
    · have hmore : Calm (heard ++ [.headers headers]) (r.watch.2 ++ []) :=
        h.concat (headers_ne_ended headers) (List.forall_mem_nil _)
      rw [List.append_nil] at hmore
      dsimp only
      rw [Judged, hp]
      exact hmore
    · exact .of_accept h hp m
    · intro e
      change Fails _ r.watch.2 e ↔ _
      rw [← List.append_nil r.watch.2, h.fails_iff]
      apply iff_of_false
      · rintro (⟨item, hmem⟩ | ⟨status, hended, -⟩)
        · cases hmem
        · cases hended
      · intro heq
        cases heq
    · exact .of_fail h status

theorem Judged.quit (h : Judged heard r) (hnone : r.result? = none) : Judged heard r.finish := by
  intro e
  apply iff_of_false (h.not_fails hnone)
  intro heq
  cases heq

end Receiving

/-! ## A single reply -/

namespace Reply

/-- What a client makes of what has been delivered of a single reply, once that is all there will
be: the first message, or a status. -/
inductive Gives (heard : List (Arrival β)) : Except Status β → Prop
  | message {m : β} : .ended none ∈ heard → (messagesOf heard).head? = some m → Gives heard (.ok m)
  | empty : .ended none ∈ heard → messagesOf heard = [] → Gives heard (.error noMessage)
  | status {status : Status} : .ended (some status) ∈ heard → Gives heard (.error status)
  | outOfOrder {m : β} : heard.head? = some (.message m) → Gives heard (.error outOfOrder)

/-- Where a reply is by what has been delivered. -/
def Awaits (heard : List (Arrival β)) (r : Reply β) : Prop :=
  match r with
  | .waiting none m => heard = [] ∧ m = none
  | .waiting (some _) m => Receiving.Calm heard [] ∧ m = (messagesOf heard).head?
  | .received m _ => ∀ given, Gives heard given ↔ given = .ok m
  | .failed status => ∀ given, Gives heard given ↔ given = .error status
  | .abandoned => ∀ given, ¬Gives heard given

variable {heard : List (Arrival β)} {a : Arrival β} {r : Reply β} {given : Except Status β}

theorem not_gives_of_calm (h : Receiving.Calm heard []) : ¬Gives heard given := by
  intro hgives
  cases hgives with
  | message hmem => exact h.not_ended _ hmem
  | empty hmem => exact h.not_ended _ hmem
  | status hmem => exact h.not_ended _ hmem
  | outOfOrder hhead =>
    obtain ⟨headers, hheaders⟩ := h.head
    rw [hheaders] at hhead
    cases hhead

theorem not_gives_nil : ¬Gives [] given := by
  intro hgives
  cases hgives with
  | message hmem => cases hmem
  | empty hmem => cases hmem
  | status hmem => cases hmem
  | outOfOrder hhead => cases hhead

/-- What comes of the end of the call after other arrivals. -/
def concluded (first : Option β) : Option Status → Except Status β
  | some status => .error status
  | none => first.elim (.error noMessage) .ok

/-- The end of the call decides, by the first message before it. -/
theorem gives_ended_iff (hcalm : heard = [] ∨ Receiving.Calm heard []) (fault : Option Status) :
    Gives (heard ++ [.ended fault]) given ↔
      given = concluded (messagesOf heard).head? fault := by
  have hmessages : messagesOf (heard ++ [.ended fault]) = messagesOf heard :=
    (messagesOf_append heard [.ended fault]).trans (List.append_nil _)
  -- The call ends once, with the last that arrives.
  have hlast {fault' : Option Status} (hmem : .ended fault' ∈ heard ++ [.ended fault]) :
      fault' = fault := by
    rcases List.mem_append.1 hmem with hmem | hmem
    · rcases hcalm with rfl | hcalm
      · cases hmem
      · exact absurd hmem (hcalm.not_ended fault')
    · cases List.mem_singleton.1 hmem
      rfl
  constructor
  · intro hgives
    cases hgives with
    | message hmem hfirst =>
      rw [hmessages] at hfirst
      rw [← hlast hmem, concluded, hfirst]
      rfl
    | empty hmem hnone =>
      rw [hmessages] at hnone
      rw [← hlast hmem, concluded, hnone]
      rfl
    | status hmem => rw [← hlast hmem, concluded]
    | outOfOrder hhead =>
      rcases hcalm with rfl | hcalm
      · cases hhead
      · obtain ⟨headers, hheaders⟩ := hcalm.head
        rw [List.head?_append, hheaders] at hhead
        cases hhead
  · rintro rfl
    cases fault with
    | some status => exact .status List.mem_concat_self
    | none =>
      cases hfirst : (messagesOf heard).head? with
      | some m => exact .message List.mem_concat_self (hmessages ▸ hfirst)
      | none =>
        exact .empty List.mem_concat_self (hmessages.trans (List.head?_eq_none_iff.1 hfirst))

/-- A message before the headers fails the call. -/
theorem gives_message_iff (m : β) :
    Gives [.message m] given ↔ given = .error outOfOrder := by
  constructor
  · intro hgives
    cases hgives with
    | message hmem => cases List.mem_singleton.1 hmem
    | empty hmem => cases List.mem_singleton.1 hmem
    | status hmem => cases List.mem_singleton.1 hmem
    | outOfOrder => rfl
  · rintro rfl
    exact .outOfOrder rfl

theorem Awaits.not_gives (h : r.Awaits heard) (hwaiting : r.isWaiting = true) :
    ¬Gives heard given := by
  cases r with
  | waiting headers m =>
    cases headers with
    | none =>
      rw [h.1]
      exact not_gives_nil
    | some headers => exact not_gives_of_calm h.1
  | _ => cases hwaiting

/-- **Step lemma.** Whatever arrives, a reply that is waited for becomes what has arrived gives. -/
theorem Awaits.arrive (h : r.Awaits heard) (hwaiting : r.isWaiting = true) (a : Arrival β) :
    (r.arrive a).Awaits (heard ++ [a]) := by
  cases r with
  | received m headers => cases hwaiting
  | failed status => cases hwaiting
  | abandoned => cases hwaiting
  | waiting headers first =>
    -- Before the headers all but the headers decide, and after them only the end of the call does.
    cases headers with
    | none =>
      obtain ⟨rfl, rfl⟩ := h
      rcases a with more | m | (- | status)
      · refine ⟨⟨⟨more, rfl⟩, fun fault hmem ↦ ?_, List.forall_mem_nil _⟩, rfl⟩
        cases List.mem_singleton.1 hmem
      · exact fun _ ↦ gives_message_iff m
      · exact fun _ ↦ gives_ended_iff (.inl rfl) none
      · exact fun _ ↦ gives_ended_iff (.inl rfl) (some status)
    | some headers =>
      obtain ⟨hcalm, hfirst⟩ := h
      have hmore (ha : ∀ fault, a ≠ .ended fault) : Receiving.Calm (heard ++ [a]) [] :=
        hcalm.concat ha (List.forall_mem_nil _)
      rcases a with more | m | (- | status)
      · refine ⟨hmore (headers_ne_ended more), ?_⟩
        rw [messagesOf_append, hfirst]
        exact congrArg List.head? (List.append_nil _).symm
      · cases first with
        | none =>
          refine ⟨hmore (message_ne_ended m), ?_⟩
          rw [messagesOf_append, List.head?_append, ← hfirst]
          rfl
        | some m' =>
          refine ⟨hmore (message_ne_ended m), ?_⟩
          rw [messagesOf_append, List.head?_append, ← hfirst]
          rfl
      · have hends (given : Except Status β) : Gives (heard ++ [.ended none]) given ↔
            given = concluded first none := by
          rw [gives_ended_iff (.inr hcalm), hfirst]
        cases first with
        | none => exact hends
        | some m => exact hends
      · exact fun _ ↦ gives_ended_iff (.inr hcalm) (some status)

theorem arrive_ne_abandoned (hwaiting : r.isWaiting = true) (a : Arrival β) :
    r.arrive a ≠ .abandoned := by
  cases r with
  | waiting headers m =>
    cases headers with
    | none => rcases a with more | m' | (- | status) <;> (intro h; cases h)
    | some headers => cases m <;> rcases a with more | m' | (- | status) <;> (intro h; cases h)
  | _ => cases hwaiting

end Reply

end CallCheck.Worker

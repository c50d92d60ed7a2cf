import CallCheck.Worker.Serving

/-!
# The answer of a server

What a server answers to a list of messages does not depend on when it goes on. `Answers` says what
the answer is, as far as one wants to tell; a server whose answer has no end has answers as long as
one likes.

## A server that has gone part of the way

`Serving.Follows` relates the side of the server to an answer: what has been sent is the beginning
of the answer and the rest is still to come, or else the answer has been sent and whatever comes
after it is of no interest. A step of the server keeps this, if what has reached the server is the
beginning of the messages.

## A reader

Whoever reads the answer takes one arrival after the other and is done at some point. `Finishes`
says that this point is the end of the answer.
-/

namespace CallCheck.Worker

open Call (Status)
open Session (Metadata)

variable {α β σ : Type} {process : Process α β σ}

/-- A server sends something that does not end the call. -/
inductive Says (process : Process α β σ) : σ → Arrival β → σ → Prop
  | headers {s next : σ} {headers : Metadata} :
      process s = .greet headers next → Says process s (.headers headers) next
  | message {s next : σ} {m : β} :
      process s = .write m next → Says process s (.message m) next

/-- So many steps of a server lead to an answer to messages. A server that ends the call without a
fault has read all of them. -/
inductive Answers (process : Process α β σ) : Nat → σ → List α → List (Arrival β) → Prop
  /-- The rest of the answer is not told. -/
  | later {s : σ} {ms : List α} : Answers process 0 s ms []
  | hear {n : Nat} {s : σ} {m : α} {ms : List α} {out : List (Arrival β)} {next : Option α → σ} :
      process s = .read next → Answers process n (next (some m)) ms out →
      Answers process (n + 1) s (m :: ms) out
  | hearEnd {n : Nat} {s : σ} {out : List (Arrival β)} {next : Option α → σ} :
      process s = .read next → Answers process n (next none) [] out →
      Answers process (n + 1) s [] out
  | say {n : Nat} {s next : σ} {ms : List α} {a : Arrival β} {out : List (Arrival β)} :
      Says process s a next → Answers process n next ms out →
      Answers process (n + 1) s ms (a :: out)
  | finish {s : σ} {ms : List α} {fault : Option Status} :
      process s = .finish fault → (fault = none → ms = []) →
      Answers process 1 s ms [.ended fault]

theorem Says.unique {s next next' : σ} {a a' : Arrival β} (h : Says process s a next)
    (h' : Says process s a' next') : a' = a ∧ next' = next := by
  cases h with
  | headers hmove =>
    cases h' with
    | headers hmove' => cases hmove.symm.trans hmove'; exact ⟨rfl, rfl⟩
    | message hmove' => cases hmove.symm.trans hmove'
  | message hmove =>
    cases h' with
    | headers hmove' => cases hmove.symm.trans hmove'
    | message hmove' => cases hmove.symm.trans hmove'; exact ⟨rfl, rfl⟩

theorem Says.ne_read {s next' : σ} {a : Arrival β} {next : Option α → σ}
    (h : Says process s a next') : process s ≠ .read next := by
  intro hread
  cases h with
  | headers hmove => cases hmove.symm.trans hread
  | message hmove => cases hmove.symm.trans hread

theorem Says.ne_finish {s next : σ} {a : Arrival β} {fault : Option Status}
    (h : Says process s a next) : process s ≠ .finish fault := by
  intro hfinish
  cases h with
  | headers hmove => cases hmove.symm.trans hfinish
  | message hmove => cases hmove.symm.trans hfinish

/-! ## The first step of an answer -/

namespace Answers

variable {n : Nat} {s next : σ} {m : α} {ms : List α} {a : Arrival β} {out : List (Arrival β)}

theorem of_hear {next : Option α → σ} (h : Answers process n s (m :: ms) out) (hout : out ≠ [])
    (hmove : process s = .read next) : ∃ k < n, Answers process k (next (some m)) ms out := by
  cases h with
  | later => exact absurd rfl hout
  | @hear k _ _ _ _ _ hmove' hanswers =>
    cases hmove.symm.trans hmove'
    exact ⟨k, Nat.lt_succ_self k, hanswers⟩
  | say hsay => exact absurd hmove hsay.ne_read
  | finish hmove' => cases hmove.symm.trans hmove'

theorem of_hearEnd {next : Option α → σ} (h : Answers process n s [] out) (hout : out ≠ [])
    (hmove : process s = .read next) : ∃ k < n, Answers process k (next none) [] out := by
  cases h with
  | later => exact absurd rfl hout
  | @hearEnd k _ _ _ hmove' hanswers =>
    cases hmove.symm.trans hmove'
    exact ⟨k, Nat.lt_succ_self k, hanswers⟩
  | say hsay => exact absurd hmove hsay.ne_read
  | finish hmove' => cases hmove.symm.trans hmove'

theorem of_says (h : Answers process n s ms out) (hout : out ≠ []) (hsay : Says process s a next) :
    ∃ k < n, ∃ rest, out = a :: rest ∧ Answers process k next ms rest := by
  cases h with
  | later => exact absurd rfl hout
  | hear hmove => exact absurd hmove hsay.ne_read
  | hearEnd hmove => exact absurd hmove hsay.ne_read
  | @say k _ _ _ b rest hsay' hanswers =>
    obtain ⟨rfl, rfl⟩ := hsay.unique hsay'
    exact ⟨k, Nat.lt_succ_self k, rest, rfl, hanswers⟩
  | finish hmove => exact absurd hmove hsay.ne_finish

theorem of_finish {fault : Option Status} (h : Answers process n s ms out) (hout : out ≠ [])
    (hmove : process s = .finish fault) :
    0 < n ∧ out = [.ended fault] ∧ (fault = none → ms = []) := by
  cases h with
  | later => exact absurd rfl hout
  | hear hmove' => cases hmove.symm.trans hmove'
  | hearEnd hmove' => cases hmove.symm.trans hmove'
  | say hsay => exact absurd hmove hsay.ne_finish
  | finish hmove' hfault =>
    cases hmove.symm.trans hmove'
    exact ⟨Nat.one_pos, rfl, hfault⟩

end Answers

/-! ## One step -/

/-- What a step of the server does. -/
inductive Serves (process : Process α β σ) (request : List α) (whole : Bool) (s : Serving β σ) :
    Serving β σ → Prop
  | hear {st : σ} {next : Option α → σ} {m : α} :
      s.state = some st → process st = .read next → request[s.heard]? = some m →
      Serves process request whole s
        { s with state := some (next (some m)), heard := s.heard + 1 }
  | hearEnd {st : σ} {next : Option α → σ} :
      s.state = some st → process st = .read next → request[s.heard]? = none → whole = true →
      Serves process request whole s { s with state := some (next none) }
  | say {st next : σ} {a : Arrival β} :
      s.state = some st → Says process st a next →
      Serves process request whole s { s with state := some next, answer := s.answer.put a }
  | finish {st : σ} {fault : Option Status} :
      s.state = some st → process st = .finish fault →
      Serves process request whole s { s with state := none, answer := s.answer.put (.ended fault) }

namespace Serving

variable {request : List α} {whole : Bool} {s s' : Serving β σ}

theorem serves_of_step (h : s.step process request whole = some s') :
    Serves process request whole s s' := by
  rw [step] at h
  obtain ⟨st, hst, h⟩ := Option.bind_eq_some_iff.1 h
  cases hmove : process st with
  | read next =>
    rw [hmove] at h
    dsimp only at h
    cases hget : request[s.heard]? with
    | some m =>
      rw [hget] at h
      obtain rfl := Option.some.inj h
      exact .hear hst hmove hget
    | none =>
      rw [hget] at h
      dsimp only at h
      split at h
      · rename_i hwhole
        obtain rfl := Option.some.inj h
        exact .hearEnd hst hmove hget hwhole
      · cases h
  | greet headers next =>
    rw [hmove] at h
    obtain rfl := Option.some.inj h
    exact .say hst (.headers hmove)
  | write m next =>
    rw [hmove] at h
    obtain rfl := Option.some.inj h
    exact .say hst (.message hmove)
  | finish fault =>
    rw [hmove] at h
    obtain rfl := Option.some.inj h
    exact .finish hst hmove

/-- Once everything has reached the server, it can go on until it has ended the call. -/
theorem isSome_step {st : σ} (hst : s.state = some st) :
    (s.step process request true).isSome := by
  rw [step, hst, Option.bind_eq_bind, Option.bind_some]
  cases process st with
  | read next =>
    dsimp only
    cases request[s.heard]? <;> rfl
  | greet headers next => rfl
  | write m next => rfl
  | finish fault => rfl

/-- What a step of the server leaves as it was. -/
structure Grows (request : List α) (s s' : Serving β σ) : Prop where
  /-- Only a server that has not ended the call goes on. -/
  isSome : s.state.isSome
  taken_eq : s'.answer.taken = s.answer.taken
  written_prefix : s.answer.written <+: s'.answer.written
  heard_le : s'.heard ≤ max s.heard request.length

theorem grows_of_serves (h : Serves process request whole s s') : Grows request s s' := by
  cases h with
  | hear hst _ hget =>
    have hlt : s.heard < request.length := (List.getElem?_eq_some_iff.1 hget).1
    exact ⟨hst ▸ rfl, rfl, List.prefix_refl _, Nat.le_trans hlt (Nat.le_max_right _ _)⟩
  | hearEnd hst => exact ⟨hst ▸ rfl, rfl, List.prefix_refl _, Nat.le_max_left _ _⟩
  | say hst => exact ⟨hst ▸ rfl, rfl, List.prefix_append _ _, Nat.le_max_left _ _⟩
  | finish hst => exact ⟨hst ▸ rfl, rfl, List.prefix_append _ _, Nat.le_max_left _ _⟩

theorem Grows.passed_eq (h : Grows request s s')
    (htaken : s.answer.taken ≤ s.answer.written.length) :
    s'.answer.passed = s.answer.passed := by
  obtain ⟨more, hmore⟩ := h.written_prefix
  rw [Pipe.passed, Pipe.passed, h.taken_eq, ← hmore, List.take_append_of_le_length htaken]

theorem Grows.isSome_deliver (h : Grows request s s') (hdeliver : s.deliver.isSome) :
    s'.deliver.isSome := by
  obtain ⟨more, hmore⟩ := h.written_prefix
  rw [deliver, Option.isSome_map, Pipe.isSome_next?] at hdeliver ⊢
  rw [h.taken_eq, ← hmore, List.length_append]
  exact Nat.lt_add_right _ hdeliver

/-- The server is on its way through an answer to messages, with at most so many steps to go. -/
structure Follows (process : Process α β σ) (messages : List α) (out : List (Arrival β)) (k : Nat)
    (s : Serving β σ) : Prop where
  /-- No more is read than there is. -/
  heard_le : s.heard ≤ messages.length
  /-- A server that has ended the call does not go on. -/
  not_ended : s.state.isSome → ∀ fault, .ended fault ∉ s.answer.written
  /-- A call that ends without a fault ends after all messages have been read. -/
  heard_eq : out <+: s.answer.written → .ended none ∈ out → s.heard = messages.length
  /-- The answer is being sent, or has been. -/
  ahead : (∃ st rest, s.state = some st ∧ s.answer.written ++ rest = out ∧
    Answers process k st (messages.drop s.heard) rest) ∨ out <+: s.answer.written

namespace Follows

variable {messages : List α} {out : List (Arrival β)} {k : Nat}

theorem start {start : σ} (h : Answers process k start messages out) :
    Follows process messages out k { state := some start } where
  heard_le := Nat.zero_le _
  not_ended _ _ := List.not_mem_nil
  heard_eq hout hend := by
    obtain rfl := List.prefix_nil.1 hout
    exact absurd hend List.not_mem_nil
  ahead := .inl ⟨start, out, rfl, rfl, h⟩

theorem not_ended_put (h : Follows process messages out k s) (hstate : s.state.isSome) {st next : σ}
    {a : Arrival β} (hsay : Says process st a next) (fault : Option Status) :
    .ended fault ∉ (s.answer.put a).written := by
  intro hmem
  rcases List.mem_append.1 hmem with hmem | hmem
  · exact h.not_ended hstate fault hmem
  · obtain rfl := List.mem_singleton.1 hmem
    cases hsay

theorem step_of_sent (h : Follows process messages out k s) (hsent : out <+: s.answer.written)
    (hrequest : request <+: messages) (hs : Serves process request whole s s') :
    Follows process messages out k s' := by
  have hopen : s.state.isSome → .ended none ∉ out :=
    fun hstate hend ↦ h.not_ended hstate none (hsent.subset hend)
  have hput : ∀ a, out <+: (s.answer.put a).written :=
    fun a ↦ hsent.trans (List.prefix_append _ [a])
  cases hs with
  | hear hst hmove hget =>
    have hstate : s.state.isSome := hst ▸ rfl
    have hlt : s.heard < request.length := (List.getElem?_eq_some_iff.1 hget).1
    exact ⟨Nat.le_trans hlt hrequest.length_le, fun _ ↦ h.not_ended hstate,
      fun _ hend ↦ absurd hend (hopen hstate), .inr hsent⟩
  | hearEnd hst =>
    have hstate : s.state.isSome := hst ▸ rfl
    exact ⟨h.heard_le, fun _ ↦ h.not_ended hstate, h.heard_eq, .inr hsent⟩
  | say hst hsay =>
    have hstate : s.state.isSome := hst ▸ rfl
    exact ⟨h.heard_le, fun _ ↦ h.not_ended_put hstate hsay,
      fun _ hend ↦ absurd hend (hopen hstate), .inr (hput _)⟩
  | finish hst =>
    have hstate : s.state.isSome := hst ▸ rfl
    exact ⟨h.heard_le, fun hnone ↦ (Bool.false_ne_true hnone).elim,
      fun _ hend ↦ absurd hend (hopen hstate), .inr (hput _)⟩

/-- A server that has not sent the answer yet comes closer to having sent it. -/
theorem step_of_not_sent (h : Follows process messages out k s)
    (hsent : ¬ out <+: s.answer.written) (hrequest : request <+: messages)
    (hwhole : whole = true → request = messages) (hs : Serves process request whole s s') :
    ∃ k' < k, Follows process messages out k' s' := by
  obtain ⟨st, rest, hst, hout, hanswers⟩ := h.ahead.resolve_right hsent
  have hstate : s.state.isSome := hst ▸ rfl
  have hrest : rest ≠ [] := by
    rintro rfl
    rw [List.append_nil] at hout
    exact hsent (hout ▸ List.prefix_refl _)
  have hend : out <+: s.answer.written → .ended none ∈ out → s.heard + 1 = messages.length :=
    fun hsent' ↦ absurd hsent' hsent
  cases hs with
  | @hear _ next m hst' hmove hget =>
    obtain rfl := Option.some.inj (hst.symm.trans hst')
    obtain ⟨hlt, rfl⟩ := List.getElem?_eq_some_iff.1 hget
    have hlt' : s.heard < messages.length := Nat.lt_of_lt_of_le hlt hrequest.length_le
    rw [List.drop_eq_getElem_cons hlt', ← hrequest.getElem hlt] at hanswers
    obtain ⟨n, hn, hanswers'⟩ := hanswers.of_hear hrest hmove
    exact ⟨n, hn, hlt', fun _ ↦ h.not_ended hstate, hend, .inl ⟨_, rest, rfl, hout, hanswers'⟩⟩
  | @hearEnd _ next hst' hmove hget hw =>
    obtain rfl := Option.some.inj (hst.symm.trans hst')
    obtain rfl := hwhole hw
    have hdrop : request.drop s.heard = [] :=
      List.drop_eq_nil_iff.2 (List.getElem?_eq_none_iff.1 hget)
    rw [hdrop] at hanswers
    obtain ⟨n, hn, hanswers'⟩ := hanswers.of_hearEnd hrest hmove
    rw [← hdrop] at hanswers'
    exact ⟨n, hn, h.heard_le, fun _ ↦ h.not_ended hstate, h.heard_eq,
      .inl ⟨_, rest, rfl, hout, hanswers'⟩⟩
  | @say _ next a hst' hsay =>
    obtain rfl := Option.some.inj (hst.symm.trans hst')
    obtain ⟨n, hn, rest, rfl, hanswers'⟩ := hanswers.of_says hrest hsay
    have hnot := h.not_ended_put hstate hsay
    have hout' : (s.answer.put a).written ++ rest = out := by
      rw [Pipe.written_put, List.append_assoc]
      exact hout
    exact ⟨n, hn, h.heard_le, fun _ ↦ hnot,
      fun hsent' hmem ↦ absurd (hsent'.subset hmem) (hnot none),
      .inl ⟨_, rest, rfl, hout', hanswers'⟩⟩
  | @finish _ fault hst' hmove =>
    obtain rfl := Option.some.inj (hst.symm.trans hst')
    obtain ⟨hk, rfl, hfault⟩ := hanswers.of_finish hrest hmove
    have hout' : (s.answer.put (.ended fault)).written = out := hout
    refine ⟨0, hk, h.heard_le, fun hnone ↦ (Bool.false_ne_true hnone).elim, ?_,
      .inr (hout' ▸ List.prefix_refl _)⟩
    -- What was sent before did not end the call, and so it was this that ended it without a fault.
    intro _ hmem
    rw [← hout', Pipe.written_put] at hmem
    rcases List.mem_append.1 hmem with hmem | hmem
    · exact absurd hmem (h.not_ended hstate none)
    · cases List.mem_singleton.1 hmem
      exact Nat.le_antisymm h.heard_le (List.drop_eq_nil_iff.1 (hfault rfl))

end Follows

end Serving

/-! ## Reading an answer -/

/-- A reader is done at the end of an answer, and not before. -/
def Finishes {A R : Type} (read : R → A → R) (isDone : R → Bool) : R → List A → Prop
  | r, [] => isDone r = true
  | r, a :: out => isDone r = false ∧ Finishes read isDone (read r a) out

/-- Of all beginnings of an answer only the whole lets the reader be done. -/
theorem Finishes.isDone_iff {A R : Type} {read : R → A → R} {isDone : R → Bool} {r : R}
    {out seen : List A} (h : Finishes read isDone r out) (hseen : seen <+: out) :
    isDone (seen.foldl read r) = true ↔ seen = out := by
  induction seen generalizing r out with
  | nil =>
    cases out with
    | nil => exact ⟨fun _ ↦ rfl, fun _ ↦ h⟩
    | cons a out =>
      rw [List.foldl_nil, h.1]
      exact ⟨fun hdone ↦ (Bool.false_ne_true hdone).elim, fun hnil ↦ nomatch hnil⟩
  | cons a seen ih =>
    cases out with
    | nil => exact nomatch List.prefix_nil.1 hseen
    | cons b out =>
      obtain ⟨rfl, htail⟩ := List.cons_prefix_cons.1 hseen
      rw [List.foldl_cons, ih h.2 htail]
      exact ⟨congrArg (a :: ·), fun heq ↦ List.tail_eq_of_cons_eq heq⟩

end CallCheck.Worker

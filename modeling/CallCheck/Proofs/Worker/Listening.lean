import CallCheck.Worker.Receiving

/-!
# What a receiving loop makes of what it hears

A receiving loop shows every message to an interceptor and counts it. To speak of what an
interceptor has been shown it is given a record: `Interceptor.recorded` answers as the interceptor
does and writes down each item with the answer.

## Main statement

`Receiving.Listens` relates the loop to what has been delivered to it. As long as the loop goes on,
the record is the list of messages, one item for each, and so are the count and the last message.
When the loop has ended, `Receiving.Ends` says why. Every arrival keeps this, whatever the
interceptor answers (`Receiving.Listens.arrive`).
-/

namespace CallCheck.Worker

open Call (Error Status)

variable {ι β : Type} {intercept : Interceptor ι β}

/-- What an interceptor has been shown, each item with the answer, the latest last. -/
abbrev Record (β : Type) := List (Except Status β × Except Error Verdict)

/-- The interceptor with a record of what it has been shown. -/
def Interceptor.recorded (intercept : Interceptor ι β) : Interceptor (ι × Record β) β :=
  fun (s, record) item ↦
    let (answer, s) := intercept s item
    (answer, (s, record ++ [(item, answer)]))

/-- The messages among what has arrived. -/
def messagesOf (heard : List (Arrival β)) : List β :=
  heard.filterMap fun
    | .message m => some m
    | _ => none

theorem messagesOf_append (heard more : List (Arrival β)) :
    messagesOf (heard ++ more) = messagesOf heard ++ messagesOf more :=
  List.filterMap_append

namespace Receiving

/-- Whether a loop takes what arrives. One that is to give up still waits for the headers. -/
def takes (r : Receiving ι β) (givesUp : Bool) : Bool :=
  match r.phase with
  | .opening => true
  | .reading => !givesUp
  | .finished _ => false

theorem result?_eq_none_of_takes {r : Receiving ι β} {givesUp : Bool}
    (h : r.takes givesUp = true) : r.result? = none := by
  rw [takes] at h
  rw [result?]
  cases hp : r.phase with
  | finished result =>
    rw [hp] at h
    cases h
  | opening => rfl
  | reading => rfl

/-- A loop that has not ended and is not to give up takes what arrives. -/
theorem takes_eq_isNone (r : Receiving ι β) : r.takes false = r.result?.isNone := by
  rw [takes, result?]
  cases r.phase <;> rfl

/-- Why a loop ends by what it has heard and by what the interceptor makes of it. -/
inductive Ends (heard : List (Arrival β)) (record : Record β) : Except Error Unit → Prop
  /-- The server has ended the call. -/
  | served : heard.getLast? = some (.ended none) → Ends heard record (.ok ())
  /-- The server has refused the call before there were headers. -/
  | refused (status : Status) : heard = [.ended (some status)] →
      Ends heard record (.error (.status status))
  /-- The call has failed. -/
  | failed (status : Status) : heard.getLast? = some (.ended (some status)) →
      record.getLast? = some (.error status, .ok .proceed) →
      Ends heard record (.error (.status status))
  /-- The call has failed, and the interceptor takes that for the end of the stream. -/
  | excused (status : Status) : heard.getLast? = some (.ended (some status)) →
      record.getLast? = some (.error status, .ok .endStream) → Ends heard record (.ok ())
  /-- The interceptor has failed on what it was shown last. -/
  | intercepted (item : Except Status β) (e : Error) : record.getLast? = some (item, .error e) →
      Ends heard record (.error e)
  /-- A message has arrived before the headers. -/
  | outOfOrder (m : β) : heard = [.message m] → Ends heard record (.error (.status outOfOrder))

/-- A loop has shown and counted all messages, and perhaps has shown a status after them. -/
structure Counts (heard : List (Arrival β)) (faults : List Status)
    (r : Receiving (ι × Record β) β) : Prop where
  /-- All messages are counted. -/
  received_eq : r.received = (messagesOf heard).length
  /-- The last of them is kept. -/
  last_eq : r.last = (messagesOf heard).getLast?
  /-- Each has been shown once, in the order in which they have arrived. -/
  shown_eq : r.watch.2.map Prod.fst = (messagesOf heard).map .ok ++ faults.map .error

/-- A loop has heard some arrivals. It ends by what it hears, or because it gives up. -/
def Listens (heard : List (Arrival β)) (GivesUp : Prop) (r : Receiving (ι × Record β) β) : Prop :=
  match r.phase with
  | .opening => heard = [] ∧ Counts [] [] r
  | .reading => Counts heard [] r
  | .finished result =>
    ((∃ faults, faults.length ≤ 1 ∧ Counts heard faults r) ∨
        ∃ m, heard = [.message m] ∧ result = .error (.status outOfOrder)) ∧
      ((GivesUp ∧ result = .ok ()) ∨ Ends heard r.watch.2 result)

namespace Listens

variable {heard : List (Arrival β)} {GivesUp : Prop} {r : Receiving (ι × Record β) β}

theorem start (watch : ι) :
    Listens [] GivesUp ({ watch := (watch, []) } : Receiving (ι × Record β) β) :=
  ⟨rfl, rfl, rfl, rfl⟩

theorem imp {GivesUp' : Prop} (h : Listens heard GivesUp r) (himp : GivesUp → GivesUp') :
    Listens heard GivesUp' r := by
  rw [Listens] at h ⊢
  split at h
  · exact h
  · exact h
  · exact ⟨h.1, h.2.imp_left fun hgives ↦ ⟨himp hgives.1, hgives.2⟩⟩

theorem counts (h : Listens heard GivesUp r) (hnone : r.result? = none) : Counts heard [] r := by
  rw [Listens] at h
  rw [result?] at hnone
  split at h
  · exact h.1 ▸ h.2
  · exact h
  · rename_i hp
    rw [hp] at hnone
    cases hnone

theorem finished (h : Listens heard GivesUp r) {result : Except Error Unit}
    (hresult : r.result? = some result) :
    ((∃ faults, faults.length ≤ 1 ∧ Counts heard faults r) ∨
        ∃ m, heard = [.message m] ∧ result = .error (.status outOfOrder)) ∧
      ((GivesUp ∧ result = .ok ()) ∨ Ends heard r.watch.2 result) := by
  rw [Listens] at h
  rw [result?] at hresult
  split at hresult
  · rename_i hp
    obtain rfl := Option.some.inj hresult
    rw [hp] at h
    exact h
  · cases hresult

theorem of_reading (hp : r.phase = .reading) (h : Counts heard [] r) :
    Listens heard GivesUp r := by
  rw [Listens, hp]
  exact h

theorem finish_of_counts (faults : List Status) (hfaults : faults.length ≤ 1)
    (h : Counts heard faults r) {result : Except Error Unit}
    (hends : (GivesUp ∧ result = .ok ()) ∨ Ends heard r.watch.2 result) :
    Listens heard GivesUp (r.finish result) :=
  ⟨.inl ⟨faults, hfaults, h.received_eq, h.last_eq, h.shown_eq⟩, hends⟩

theorem quit (h : Listens heard GivesUp r) (hnone : r.result? = none) (hgives : GivesUp) :
    Listens heard GivesUp r.finish :=
  finish_of_counts [] (Nat.zero_le 1) (h.counts hnone) (.inl ⟨hgives, rfl⟩)

end Listens

section Arriving

variable {heard : List (Arrival β)} {GivesUp : Prop} {r : Receiving (ι × Record β) β}

theorem Counts.skip (h : Counts heard [] r) {a : Arrival β} (ha : messagesOf [a] = []) :
    Counts (heard ++ [a]) [] r := by
  have hmessages : messagesOf (heard ++ [a]) = messagesOf heard := by
    rw [messagesOf_append, ha, List.append_nil]
  exact ⟨hmessages ▸ h.received_eq, hmessages ▸ h.last_eq, hmessages ▸ h.shown_eq⟩

theorem Counts.message (h : Counts heard [] r) (m : β) (answer : Except Error Verdict) (watch : ι) :
    Counts (heard ++ [.message m]) []
      { r with
        watch := (watch, r.watch.2 ++ [(.ok m, answer)])
        received := r.received + 1
        last := some m } := by
  have hmessages : messagesOf (heard ++ [.message m]) = messagesOf heard ++ [m] :=
    messagesOf_append heard [.message m]
  refine ⟨?_, ?_, ?_⟩
  · rw [hmessages, List.length_append, List.length_singleton, h.received_eq]
  · rw [hmessages, List.getLast?_concat]
  · have hshown := h.shown_eq
    rw [List.map_nil, List.append_nil] at hshown
    rw [hmessages, List.map_append, hshown, List.map_append, List.map_nil, List.append_nil]
    rfl

theorem Counts.fault (h : Counts heard [] r) (status : Status) (answer : Except Error Verdict)
    (watch : ι) :
    Counts (heard ++ [.ended (some status)]) [status]
      { r with watch := (watch, r.watch.2 ++ [(.error status, answer)]) } := by
  have hskip := h.skip (a := .ended (some status)) rfl
  refine ⟨hskip.received_eq, hskip.last_eq, ?_⟩
  have hshown := hskip.shown_eq
  rw [List.map_nil, List.append_nil] at hshown
  rw [List.map_append, hshown]
  rfl

theorem Listens.begin (h : Counts [] [] r) (a : Arrival β) : Listens [a] GivesUp (r.begin a) := by
  have hskip (ha : messagesOf [a] = []) : Counts [a] [] r := h.skip ha
  cases a with
  | headers headers => exact ⟨h.received_eq, h.last_eq, h.shown_eq⟩
  | message m => exact ⟨.inr ⟨m, rfl, rfl⟩, .inr (.outOfOrder m rfl)⟩
  | ended fault =>
    cases fault with
    | none => exact finish_of_counts [] (Nat.zero_le 1) (hskip rfl) (.inr (.served rfl))
    | some status =>
      exact finish_of_counts [] (Nat.zero_le 1) (hskip rfl) (.inr (.refused status rfl))

theorem Listens.accept (h : Counts heard [] r) (hp : r.phase = .reading) (m : β) :
    Listens (heard ++ [.message m]) GivesUp (r.accept intercept.recorded m).2 := by
  cases hanswer : intercept r.watch.1 (.ok m) with
  | mk answer watch =>
    have hcounts := h.message m answer watch
    have hrecorded : intercept.recorded r.watch (.ok m) =
        (answer, (watch, r.watch.2 ++ [(.ok m, answer)])) := by
      rw [Interceptor.recorded, hanswer]
    rw [Receiving.accept, hrecorded]
    cases answer with
    | error e =>
      exact finish_of_counts [] (Nat.zero_le 1) hcounts
        (.inr (.intercepted (.ok m) e List.getLast?_concat))
    | ok verdict => exact of_reading hp hcounts

theorem Listens.fail (h : Counts heard [] r) (status : Status) :
    Listens (heard ++ [.ended (some status)]) GivesUp (r.fail intercept.recorded status) := by
  cases hanswer : intercept r.watch.1 (.error status) with
  | mk answer watch =>
    have hcounts := h.fault status answer watch
    have hrecorded : intercept.recorded r.watch (.error status) =
        (answer, (watch, r.watch.2 ++ [(.error status, answer)])) := by
      rw [Interceptor.recorded, hanswer]
    have hheard : (heard ++ [Arrival.ended (some status)]).getLast? = some (.ended (some status)) :=
      List.getLast?_concat
    rw [Receiving.fail, hrecorded]
    refine match answer, hcounts with
      | .error e, hcounts => ?_
      | .ok .endStream, hcounts => ?_
      | .ok .proceed, hcounts => ?_
    · exact finish_of_counts [status] (Nat.le_refl 1) hcounts
        (.inr (.intercepted (.error status) e List.getLast?_concat))
    · exact finish_of_counts [status] (Nat.le_refl 1) hcounts
        (.inr (.excused status hheard List.getLast?_concat))
    · exact finish_of_counts [status] (Nat.le_refl 1) hcounts
        (.inr (.failed status hheard List.getLast?_concat))

theorem Listens.arrive (h : Listens heard GivesUp r) (hnone : r.result? = none) (a : Arrival β) :
    Listens (heard ++ [a]) GivesUp (r.arrive intercept.recorded a).2 := by
  have hcounts := h.counts hnone
  rw [arrive.eq_def]
  rw [Listens] at h
  rw [result?] at hnone
  cases hp : r.phase with
  | finished result =>
    rw [hp] at hnone
    cases hnone
  | opening =>
    rw [hp] at h
    obtain ⟨rfl, hcounts⟩ := h
    exact .begin hcounts a
  | reading =>
    cases a with
    | headers headers => exact of_reading hp (hcounts.skip rfl)
    | message m => exact .accept hcounts hp m
    | ended fault =>
      cases fault with
      | none =>
        exact finish_of_counts [] (Nat.zero_le 1) (hcounts.skip rfl)
          (.inr (.served List.getLast?_concat))
      | some status => exact .fail hcounts status

/-- The loop says that the interceptor wants no more messages as soon as it does. -/
theorem verdict_of_mem {m : β} {a : Arrival β}
    (hmem : (.ok m, .ok .endStream) ∈ (r.arrive intercept.recorded a).2.watch.2) :
    (.ok m, .ok .endStream) ∈ r.watch.2 ∨ (r.arrive intercept.recorded a).1 = .endStream := by
  rw [arrive.eq_def] at hmem ⊢
  cases hp : r.phase with
  | finished result =>
    rw [hp] at hmem
    exact .inl hmem
  | opening =>
    rw [hp] at hmem
    cases a with
    | ended fault => cases fault <;> exact .inl hmem
    | _ => exact .inl hmem
  | reading =>
    rw [hp] at hmem
    cases a with
    | headers headers => exact .inl hmem
    | message m' =>
      cases hanswer : intercept r.watch.1 (.ok m') with
      | mk answer watch =>
        simp only [accept, Interceptor.recorded, hanswer] at hmem ⊢
        cases answer with
        | error e =>
          rcases List.mem_append.1 hmem with hmem | hmem
          · exact .inl hmem
          · cases List.mem_singleton.1 hmem
        | ok verdict =>
          rcases List.mem_append.1 hmem with hmem | hmem
          · exact .inl hmem
          · cases List.mem_singleton.1 hmem
            exact .inr rfl
    | ended fault =>
      cases fault with
      | none => exact .inl hmem
      | some status =>
        refine .inl ?_
        cases hanswer : intercept r.watch.1 (.error status) with
        | mk answer watch =>
          have hwatch : (r.fail intercept.recorded status).watch.2 =
              r.watch.2 ++ [(.error status, answer)] := by
            simp only [fail, Interceptor.recorded, hanswer]
            split <;> rfl
          rw [hwatch] at hmem
          rcases List.mem_append.1 hmem with hmem | hmem
          · exact hmem
          · cases List.mem_singleton.1 hmem

end Arriving

end Receiving

end CallCheck.Worker

import CallCheck.Worker.Sending

/-!
# Sending the messages of a list

What the sending loop has done is known from two numbers: how many messages it has handed to the
transport, and how many of these the transport has taken. `Sending.Follows` says so; every step of
the loop and of the transport keeps it, and brings the loop closer to its end.
-/

namespace CallCheck.Worker

open Call (Limits)

namespace Sending

variable {π α : Type} {ms : List α} {limits : Limits} {s s' : Sending (List α) α}

/-- Where a loop can be that gives the messages of a list: the provider has what has not been
asked for, and the loop ends before it has sent enough only if it is told to or nothing more is
taken. -/
def PhaseFollows (ms : List α) (limits : Limits) (s : Sending (List α) α) : Prop :=
  match s.phase with
  | .ready | .pausing => s.provider = ms.drop s.sent ∧ limits.reached s.sent = false
  | .offering m last =>
    last = false ∧ ms.drop s.sent = m :: s.provider ∧ limits.reached s.sent = false
  | .finished result =>
    result = .ok () ∧ (s.sent = limits.enough ms.length ∨ s.ended = true ∨ s.closed = true)

/-- The sending side gives the messages of a list. -/
structure Follows (ms : List α) (limits : Limits) (s : Sending (List α) α) : Prop where
  /-- What has been handed to the transport is the beginning of the list. -/
  written_eq : s.channel.written = ms.take s.sent
  /-- No more is taken than has been handed over. -/
  taken_le : s.channel.taken ≤ s.sent
  /-- No more is handed over than is enough. -/
  sent_le : s.sent ≤ limits.enough ms.length
  /-- The loop is where it can be. -/
  phase : PhaseFollows ms limits s

/-- A bound on the number of steps of the loop. -/
def work (s : Sending (List α) α) : Nat :=
  -- A message is asked for, handed over and perhaps followed by a pause.
  match s.phase with
  | .ready => 3 * s.provider.length + 1
  | .pausing => 3 * s.provider.length + 2
  | .offering _ _ => 3 * s.provider.length + 3
  | .finished _ => 0

/-- A bound on the number of steps of the loop and of the transport. -/
def due (s : Sending (List α) α) : Nat :=
  -- A step of the loop counts twice, since it may leave a message for the transport.
  2 * s.work + (s.channel.written.length - s.channel.taken)

theorem phase_of_result {s : Sending π α} (h : s.result?.isSome) :
    ∃ result, s.phase = .finished result := by
  rw [result?] at h
  split at h
  · rename_i result hp
    exact ⟨result, hp⟩
  · cases h

theorem go_eq_none {ask : Source π α} {s : Sending π α} (h : s.result?.isSome) :
    s.go ask limits = none := by
  obtain ⟨result, hp⟩ := phase_of_result h
  rw [Sending.go, hp]

theorem rest_eq_none {s : Sending π α} (h : s.result?.isSome) : s.rest = none := by
  obtain ⟨result, hp⟩ := phase_of_result h
  rw [Sending.rest, hp]

/-- Nothing is given back, and nobody is told anything. -/
structure Advances (s s' : Sending π α) : Prop where
  ended_eq : s'.ended = s.ended
  closed_eq : s'.closed = s.closed
  taken_le : s.channel.taken ≤ s'.channel.taken

theorem advances_of_go {ask : Source π α} {s s' : Sending π α} (hs : s.go ask limits = some s') :
    Advances s s' := by
  rw [Sending.go] at hs
  split at hs
  · split at hs
    · obtain rfl := Option.some.inj hs
      exact ⟨rfl, rfl, Nat.le_refl _⟩
    · obtain rfl := Option.some.inj hs
      rw [answered.eq_def]
      split <;> exact ⟨rfl, rfl, Nat.le_refl _⟩
  · split at hs
    · obtain rfl := Option.some.inj hs
      exact ⟨rfl, rfl, Nat.le_refl _⟩
    · split at hs
      · obtain rfl := Option.some.inj hs
        rw [Sending.handed]
        dsimp only
        split <;> exact ⟨rfl, rfl, Nat.le_refl _⟩
      · cases hs
  · split at hs
    · obtain rfl := Option.some.inj hs
      exact ⟨rfl, rfl, Nat.le_refl _⟩
    · cases hs
  · cases hs

theorem advances_of_rest {s s' : Sending π α} (hs : s.rest = some s') : Advances s s' := by
  rw [Sending.rest] at hs
  split at hs
  · obtain rfl := Option.some.inj hs
    exact ⟨rfl, rfl, Nat.le_refl _⟩
  · cases hs

theorem advances_of_take {s s' : Sending π α} (hs : s.take = some s') : Advances s s' := by
  rw [Sending.take] at hs
  split at hs
  · cases hs
  · obtain ⟨m, -, rfl⟩ := Option.map_eq_some_iff.1 hs
    exact ⟨rfl, rfl, Nat.le_succ _⟩

namespace Follows

theorem start : Follows ms limits { provider := ms } where
  written_eq := (List.take_zero).symm
  taken_le := Nat.le_refl 0
  sent_le := Nat.zero_le _
  phase := ⟨(List.drop_zero).symm, limits.reached_zero⟩

theorem single {m : α} {s : Sending (List α) α} (hphase : s.phase = .finished (.ok ()))
    (hsent : s.sent = 1) (hchannel : s.channel = ⟨[m], 1⟩) : Follows [m] limits s := by
  have henough : limits.enough [m].length = 1 :=
    Nat.le_antisymm (limits.enough_le 1) (limits.lt_enough limits.reached_zero Nat.one_pos)
  refine ⟨?_, ?_, Nat.le_of_eq (hsent.trans henough.symm), ?_⟩
  · rw [hchannel, hsent]
    rfl
  · have htaken : s.channel.taken = 1 := by rw [hchannel]
    exact Nat.le_of_eq (htaken.trans hsent.symm)
  · rw [PhaseFollows, hphase]
    exact ⟨rfl, .inl (hsent.trans henough.symm)⟩

theorem length_written (h : Follows ms limits s) : s.channel.written.length = s.sent := by
  have hle := limits.enough_le ms.length
  have hsent := h.sent_le
  rw [h.written_eq, List.length_take]
  omega

theorem finish (h : Follows ms limits s) (hend : s.ended = true ∨ s.closed = true) :
    Follows ms limits (s.finish) :=
  ⟨h.written_eq, h.taken_le, h.sent_le, rfl, .inr hend⟩

theorem due_finish (hwork : 0 < s.work) (result : Except Call.Error Unit) :
    (s.finish result).due < s.due := by
  have hfinish : (s.finish result).due = s.channel.written.length - s.channel.taken :=
    Nat.zero_add _
  rw [hfinish, due]
  omega

theorem go_ready (h : Follows ms limits s) (hp : s.phase = .ready)
    (hs : s.go fromList limits = some s') : Follows ms limits s' ∧ s'.due < s.due := by
  have hphase := h.phase
  have hwork : s.work = 3 * s.provider.length + 1 := by rw [work, hp]
  rw [PhaseFollows, hp] at hphase
  rw [Sending.go, hp] at hs
  obtain ⟨hprovider, hreached⟩ := hphase
  dsimp only at hs
  split at hs
  · rename_i hended
    obtain rfl := Option.some.inj hs
    exact ⟨h.finish (.inl hended), due_finish (by omega) _⟩
  · cases hlist : s.provider with
    | nil =>
      rw [hlist] at hs
      have hs' : s' = { s with provider := [], phase := .finished (.ok ()) } :=
        (Option.some.inj hs).symm
      have hall : s.sent = limits.enough ms.length := by
        have hlength := List.drop_eq_nil_iff.1 (hprovider.symm.trans hlist)
        have hle := limits.enough_le ms.length
        have hsent := h.sent_le
        omega
      have hdue : s'.due = 2 * 0 + (s.channel.written.length - s.channel.taken) := by rw [hs']; rfl
      have hlower : s'.due < s.due := by
        rw [hdue, due, hwork]
        omega
      subst hs'
      exact ⟨⟨h.written_eq, h.taken_le, h.sent_le, rfl, .inl hall⟩, hlower⟩
    | cons m rest =>
      rw [hlist] at hs
      have hs' : s' = { s with provider := rest, phase := .offering m false } :=
        (Option.some.inj hs).symm
      have hdue : s'.due =
          2 * (3 * rest.length + 3) + (s.channel.written.length - s.channel.taken) := by
        rw [hs']
        rfl
      have hlower : s'.due < s.due := by
        rw [hdue, due, hwork, hlist, List.length_cons]
        omega
      subst hs'
      have hdrop := hprovider.symm.trans hlist
      exact ⟨⟨h.written_eq, h.taken_le, h.sent_le, rfl, hdrop, hreached⟩, hlower⟩

theorem handed {m : α} (h : Follows ms limits s) (hdrop : ms.drop s.sent = m :: s.provider)
    (hreached : limits.reached s.sent = false) (hwork : s.work = 3 * s.provider.length + 3) :
    Follows ms limits (s.handed limits m false) ∧ (s.handed limits m false).due < s.due := by
  have hlt : s.sent < ms.length := by
    have hlength := congrArg List.length hdrop
    rw [List.length_drop, List.length_cons] at hlength
    omega
  have henough := limits.lt_enough hreached hlt
  have hwritten : (s.channel.put m).written = ms.take (s.sent + 1) := by
    have hget : ms[s.sent]? = some m := by
      rw [← List.head?_drop, hdrop]
      rfl
    rw [Pipe.written_put, h.written_eq, List.take_add_one, hget]
    rfl
  have hrest : s.provider = ms.drop (s.sent + 1) := by
    rw [← List.drop_drop, hdrop]
    rfl
  have hlength : (s.channel.put m).written.length = s.channel.written.length + 1 := by
    rw [Pipe.written_put, List.length_append, List.length_singleton]
  have htaken : (s.channel.put m).taken = s.channel.taken := rfl
  have hle : s.channel.taken ≤ s.sent + 1 := Nat.le_succ_of_le h.taken_le
  -- Either this was enough, or the loop pauses, or it asks again at once.
  rw [Sending.handed]
  dsimp only
  split
  · rename_i hlast
    rw [Bool.false_or] at hlast
    have hall : s.sent + 1 = limits.enough ms.length :=
      Nat.le_antisymm henough (limits.enough_le_of_reached hlast ms.length)
    refine ⟨⟨hwritten, hle, henough, rfl, .inl hall⟩, ?_⟩
    simp only [due, work, Sending.finish, hlength, htaken] at hwork ⊢
    omega
  · rename_i hlast
    rw [Bool.false_or, Bool.not_eq_true] at hlast
    cases limits.interval.isSome with
    | true =>
      refine ⟨⟨hwritten, hle, henough, hrest, hlast⟩, ?_⟩
      simp only [due, hwork]
      simp only [work, if_true, hlength, htaken]
      omega
    | false =>
      refine ⟨⟨hwritten, hle, henough, hrest, hlast⟩, ?_⟩
      simp only [due, hwork]
      simp only [work, Bool.false_eq_true, if_false, hlength, htaken]
      omega

theorem go_offering {m : α} {last : Bool} (h : Follows ms limits s)
    (hp : s.phase = .offering m last) (hs : s.go fromList limits = some s') :
    Follows ms limits s' ∧ s'.due < s.due := by
  have hphase := h.phase
  have hwork : s.work = 3 * s.provider.length + 3 := by rw [work, hp]
  rw [PhaseFollows, hp] at hphase
  rw [Sending.go, hp] at hs
  obtain ⟨rfl, hdrop, hreached⟩ := hphase
  dsimp only at hs
  split at hs
  · rename_i hend
    obtain rfl := Option.some.inj hs
    exact ⟨h.finish (Bool.or_eq_true_iff.1 hend), due_finish (by omega) _⟩
  · split at hs
    · obtain rfl := Option.some.inj hs
      exact h.handed hdrop hreached hwork
    · cases hs

theorem go (h : Follows ms limits s) (hs : s.go fromList limits = some s') :
    Follows ms limits s' ∧ s'.due < s.due := by
  cases hp : s.phase with
  | ready => exact h.go_ready hp hs
  | offering m last => exact h.go_offering hp hs
  | pausing =>
    have hwork : s.work = 3 * s.provider.length + 2 := by rw [work, hp]
    rw [Sending.go, hp] at hs
    dsimp only at hs
    split at hs
    · rename_i hended
      obtain rfl := Option.some.inj hs
      exact ⟨h.finish (.inl hended), due_finish (by omega) _⟩
    · cases hs
  | finished result =>
    rw [Sending.go, hp] at hs
    cases hs

theorem rest (h : Follows ms limits s) (hs : s.rest = some s') :
    Follows ms limits s' ∧ s'.due < s.due := by
  have hphase := h.phase
  rw [Sending.rest] at hs
  split at hs
  · rename_i hp
    obtain rfl := Option.some.inj hs
    have hwork : s.work = 3 * s.provider.length + 2 := by rw [work, hp]
    rw [PhaseFollows, hp] at hphase
    refine ⟨⟨h.written_eq, h.taken_le, h.sent_le, hphase⟩, ?_⟩
    simp only [due, hwork]
    simp only [work]
    omega
  · cases hs

theorem take (h : Follows ms limits s) (hs : s.take = some s') :
    Follows ms limits s' ∧ s'.due < s.due := by
  rw [Sending.take] at hs
  split at hs
  · cases hs
  · obtain ⟨m, hnext, rfl⟩ := Option.map_eq_some_iff.1 hs
    have hlt : s.channel.taken < s.channel.written.length :=
      (List.getElem?_eq_some_iff.1 hnext).1
    have hsent := h.length_written
    refine ⟨⟨h.written_eq, ?_, h.sent_le, h.phase⟩, ?_⟩
    · change s.channel.taken + 1 ≤ s.sent
      omega
    · have hdue : due { s with channel := s.channel.take } =
          2 * s.work + (s.channel.written.length - (s.channel.taken + 1)) := rfl
      rw [hdue, due]
      omega

theorem of_flags (h : Follows ms limits s) {closed ended : Bool} (hclosed : s.closed → closed)
    (hended : s.ended → ended) : Follows ms limits { s with closed, ended } := by
  refine ⟨h.written_eq, h.taken_le, h.sent_le, ?_⟩
  have hphase := h.phase
  rw [PhaseFollows] at hphase ⊢
  dsimp only
  cases hp : s.phase with
  | finished result =>
    rw [hp] at hphase
    exact ⟨hphase.1, hphase.2.imp_right fun hend ↦ hend.imp hended hclosed⟩
  | _ =>
    rw [hp] at hphase
    exact hphase

theorem close (h : Follows ms limits s) : Follows ms limits s.close :=
  h.of_flags (fun _ ↦ rfl) fun hended ↦ hended

theorem tellToEnd (h : Follows ms limits s) : Follows ms limits s.tellToEnd :=
  h.of_flags (fun hclosed ↦ hclosed) fun _ ↦ rfl

theorem result_eq (h : Follows ms limits s) {result : Except Call.Error Unit}
    (hresult : s.result? = some result) : result = .ok () := by
  have hphase := h.phase
  rw [result?] at hresult
  split at hresult
  · rename_i hp
    rw [PhaseFollows, hp] at hphase
    exact (Option.some.inj hresult).symm.trans hphase.1
  · cases hresult

theorem failed_eq (h : Follows ms limits s) : s.failed = false := by
  rw [failed]
  cases hresult : s.result? with
  | none => rfl
  | some result => rw [h.result_eq hresult]

/-- A loop that ends although it is not told to and messages are taken has sent enough. -/
theorem sent_eq (h : Follows ms limits s) (hresult : s.result?.isSome) (hended : s.ended = false)
    (hclosed : s.closed = false) : s.sent = limits.enough ms.length := by
  have hphase := h.phase
  rw [result?] at hresult
  split at hresult
  · rename_i hp
    rw [PhaseFollows, hp, hended, hclosed] at hphase
    simpa using hphase.2
  · cases hresult

theorem passed_prefix (h : Follows ms limits s) :
    s.channel.passed <+: ms.take (limits.enough ms.length) := by
  rw [Pipe.passed, h.written_eq, List.take_take]
  have hsent := h.sent_le
  exact List.take_prefix_take_left (by omega)

/-- If nothing more will reach the server, then what is enough has reached it. -/
theorem passed_eq_of_isWhole (h : Follows ms limits s) (hwhole : s.isWhole = true)
    (hended : s.ended = false) (hclosed : s.closed = false) :
    s.channel.passed = ms.take (limits.enough ms.length) := by
  rw [isWhole, Bool.and_eq_true, Pipe.isEmpty, decide_eq_true_iff] at hwhole
  rw [Pipe.passed, List.take_of_length_le hwhole.2, h.written_eq,
    h.sent_eq hwhole.1 hended hclosed]

theorem isSome_take (hclosed : s.closed = false) (hempty : s.channel.isEmpty = false) :
    s.take.isSome := by
  have hnext : s.channel.next?.isSome := by
    rw [Option.isSome_iff_ne_none]
    intro hnone
    rw [(s.channel.isEmpty_iff_next?).2 hnone] at hempty
    cases hempty
  rw [Sending.take, hclosed]
  simpa using hnext

/-- Until the loop has ended, some step of it or of the transport can be made. -/
theorem isSome_of_result_eq_none (hresult : s.result? = none) :
    (s.go fromList limits).isSome ∨ s.rest.isSome ∨ s.take.isSome := by
  cases hp : s.phase with
  | ready =>
    refine .inl ?_
    rw [Sending.go, hp]
    dsimp only
    split <;> rfl
  | offering m last =>
    rw [Sending.go, hp]
    dsimp only
    split
    · exact .inl rfl
    · rename_i hend
      rw [Bool.not_eq_true, Bool.or_eq_false_iff] at hend
      split
      · exact .inl rfl
      · rename_i hempty
        exact .inr (.inr (isSome_take hend.2 (Bool.not_eq_true _ ▸ hempty)))
  | pausing =>
    refine .inr (.inl ?_)
    rw [Sending.rest, hp]
    rfl
  | finished result =>
    rw [result?, hp] at hresult
    cases hresult

end Follows

end Sending

end CallCheck.Worker

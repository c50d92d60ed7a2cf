import CallCheck.Proofs.Worker.Sending

/-!
# Sending the messages of any provider

A provider is a function with a state, and what it gives next may depend on how often it has been
asked. `supplied` is what it gives when it is asked a number of times. Whatever the limits, and
whoever tells the loop to end, what has been handed to the transport is a beginning of that:
`Sending.Conveys` is the invariant, and every step of the loop and of the transport keeps it.

## After the loop has been told to end

`Sending.Rests` relates a loop that has been told to end to what becomes of it. Nothing is asked
for and nothing is handed over any more, wherever the loop was, and its next turn is its last.
-/

namespace CallCheck.Worker

open Call (Error Limits Supply)

variable {π α : Type} {ask : Source π α} {limits : Limits}

/-! ## What a provider gives -/

/-- The messages that a provider gives when it is asked so many times. It is not asked again after
the last message, after the end, or after it has failed. -/
def supplied (ask : Source π α) : Nat → π → List α
  | 0, _ => []
  | n + 1, s =>
    match ask s with
    | (.ok (.message m), next) => m :: supplied ask n next
    | (.ok (.last m), _) => [m]
    | _ => []

/-- A provider has given some messages, and gives the others from here. -/
def Supplies (ask : Source π α) (start : π) (given : List α) (now : π) : Prop :=
  ∃ n, ∀ k, supplied ask (n + k) start = given ++ supplied ask k now

namespace Supplies

variable {provider now next : π} {given : List α} {m : α}

theorem start : Supplies ask provider [] provider :=
  ⟨0, fun k ↦ by rw [Nat.zero_add, List.nil_append]⟩

theorem exists_supplied (h : Supplies ask provider given now) :
    ∃ n, given <+: supplied ask n provider := by
  obtain ⟨n, hn⟩ := h
  refine ⟨n, ?_⟩
  rw [← Nat.add_zero n, hn]
  exact List.prefix_append _ _

theorem message (h : Supplies ask provider given now)
    (hask : ask now = (.ok (.message m), next)) : Supplies ask provider (given ++ [m]) next := by
  obtain ⟨n, hn⟩ := h
  refine ⟨n + 1, fun k ↦ ?_⟩
  rw [Nat.add_assoc, Nat.add_comm 1 k, hn, supplied, hask, List.append_assoc]
  rfl

theorem last (h : Supplies ask provider given now) (hask : ask now = (.ok (.last m), next)) :
    ∃ n, given ++ [m] <+: supplied ask n provider := by
  obtain ⟨n, hn⟩ := h
  have heq : supplied ask (n + 1) provider = given ++ [m] := by
    rw [hn, supplied, hask]
  exact ⟨n + 1, heq ▸ List.prefix_refl _⟩

end Supplies

/-! ## What the loop hands over -/

namespace Sending

variable {provider : π} {s s' : Sending π α}

/-- Where a loop can be that has handed over some messages of a provider. -/
def PhaseConveys (ask : Source π α) (provider : π) (s : Sending π α) : Prop :=
  match s.phase with
  | .ready | .pausing => Supplies ask provider s.channel.written s.provider
  | .offering m false => Supplies ask provider (s.channel.written ++ [m]) s.provider
  | .offering m true => ∃ n, s.channel.written ++ [m] <+: supplied ask n provider
  | .finished _ => ∃ n, s.channel.written <+: supplied ask n provider

/-- The sending side hands over the messages of a provider in order. -/
structure Conveys (ask : Source π α) (provider : π) (s : Sending π α) : Prop where
  /-- What has been handed over is counted. -/
  sent_eq : s.sent = s.channel.written.length
  /-- The loop is where it can be. -/
  phase : PhaseConveys ask provider s

namespace Conveys

theorem start : Conveys ask provider { provider } where
  sent_eq := rfl
  phase := Supplies.start

theorem exists_supplied (h : Conveys ask provider s) :
    ∃ n, s.channel.written <+: supplied ask n provider := by
  have hphase := h.phase
  rw [PhaseConveys] at hphase
  split at hphase
  · exact hphase.exists_supplied
  · exact hphase.exists_supplied
  · obtain ⟨n, hn⟩ := hphase.exists_supplied
    exact ⟨n, (List.prefix_append _ _).trans hn⟩
  · obtain ⟨n, hn⟩ := hphase
    exact ⟨n, (List.prefix_append _ _).trans hn⟩
  · exact hphase

theorem finish (h : Conveys ask provider s) (result : Except Error Unit) :
    Conveys ask provider (s.finish result) :=
  ⟨h.sent_eq, h.exists_supplied⟩

theorem answered (h : Conveys ask provider s) (hp : s.phase = .ready) :
    Conveys ask provider
      (Sending.answered { s with provider := (ask s.provider).2 } (ask s.provider).1) := by
  have hphase := h.phase
  rw [PhaseConveys, hp] at hphase
  have hgiven := hphase.exists_supplied
  cases hask : ask s.provider with
  | mk answer next =>
    cases answer with
    | error e => exact ⟨h.sent_eq, hgiven⟩
    | ok supply =>
      cases supply with
      | message m => exact ⟨h.sent_eq, hphase.message hask⟩
      | last m => exact ⟨h.sent_eq, hphase.last hask⟩
      | finished => exact ⟨h.sent_eq, hgiven⟩

theorem handed (h : Conveys ask provider s) {m : α} {last : Bool}
    (hp : s.phase = .offering m last) : Conveys ask provider (s.handed limits m last) := by
  have hphase := h.phase
  rw [PhaseConveys, hp] at hphase
  have hsent : s.sent + 1 = (s.channel.put m).written.length := by
    rw [Pipe.written_put, List.length_append, List.length_singleton, h.sent_eq]
  rw [Sending.handed]
  dsimp only
  cases last with
  | true => exact ⟨hsent, hphase⟩
  | false =>
    split
    · exact ⟨hsent, hphase.exists_supplied⟩
    · refine ⟨hsent, ?_⟩
      rw [PhaseConveys]
      cases limits.interval <;> exact hphase

theorem go (h : Conveys ask provider s) (hs : s.go ask limits = some s') :
    Conveys ask provider s' := by
  rw [Sending.go] at hs
  split at hs
  · rename_i hp
    split at hs
    · obtain rfl := Option.some.inj hs
      exact h.finish _
    · obtain rfl := Option.some.inj hs
      exact h.answered hp
  · rename_i hp
    split at hs
    · obtain rfl := Option.some.inj hs
      exact h.finish _
    · split at hs
      · obtain rfl := Option.some.inj hs
        exact h.handed hp
      · cases hs
  · split at hs
    · obtain rfl := Option.some.inj hs
      exact h.finish _
    · cases hs
  · cases hs

theorem rest (h : Conveys ask provider s) (hs : s.rest = some s') : Conveys ask provider s' := by
  rw [Sending.rest] at hs
  split at hs
  · rename_i hp
    obtain rfl := Option.some.inj hs
    have hphase := h.phase
    rw [PhaseConveys, hp] at hphase
    exact ⟨h.sent_eq, hphase⟩
  · cases hs

theorem take (h : Conveys ask provider s) (hs : s.take = some s') : Conveys ask provider s' := by
  rw [Sending.take] at hs
  split at hs
  · cases hs
  · obtain ⟨m, -, rfl⟩ := Option.map_eq_some_iff.1 hs
    exact ⟨h.sent_eq, h.phase⟩

theorem close (h : Conveys ask provider s) : Conveys ask provider s.close := ⟨h.sent_eq, h.phase⟩

theorem tellToEnd (h : Conveys ask provider s) : Conveys ask provider s.tellToEnd :=
  ⟨h.sent_eq, h.phase⟩

end Conveys

/-! ## After the loop has been told to end -/

/-- What becomes of a loop that has been told to end: it asks for nothing and hands nothing over,
and it ends well or as it had ended. -/
structure Rests (s s' : Sending π α) : Prop where
  ended : s'.ended = true
  provider_eq : s'.provider = s.provider
  written_eq : s'.channel.written = s.channel.written
  sent_eq : s'.sent = s.sent
  /-- What has come of the loop is what had come of it, or nothing but the order to end. -/
  result : s'.result? = s.result? ∨ (s.result? = none ∧ s'.result? = some (.ok ()))

namespace Rests

theorem refl (h : s.ended = true) : Rests s s := ⟨h, rfl, rfl, rfl, .inl rfl⟩

theorem trans {s'' : Sending π α} (h : Rests s s') (h' : Rests s' s'') : Rests s s'' where
  ended := h'.ended
  provider_eq := h'.provider_eq.trans h.provider_eq
  written_eq := h'.written_eq.trans h.written_eq
  sent_eq := h'.sent_eq.trans h.sent_eq
  result := by
    rcases h'.result with heq | ⟨hnone, hsome⟩
    · rw [heq]
      exact h.result
    · rcases h.result with heq | ⟨-, hsome'⟩
      · exact .inr ⟨heq ▸ hnone, hsome⟩
      · rw [hnone] at hsome'
        cases hsome'

theorem isSome_result (h : Rests s s') (hsome : s.result?.isSome) : s'.result?.isSome := by
  rcases h.result with heq | ⟨-, hsome'⟩
  · rw [heq]
    exact hsome
  · exact Option.isSome_of_eq_some hsome'

theorem go (h : s.ended = true) (hs : s.go ask limits = some s') :
    Rests s s' ∧ s'.result? = some (.ok ()) := by
  have hfinish : s' = s.finish ∧ s.result? = none := by
    rw [Sending.go, h] at hs
    rw [result?]
    cases hp : s.phase with
    | finished result =>
      rw [hp] at hs
      cases hs
    | _ =>
      rw [hp] at hs
      exact ⟨(Option.some.inj hs).symm, rfl⟩
  obtain ⟨rfl, hnone⟩ := hfinish
  exact ⟨⟨h, rfl, rfl, rfl, .inr ⟨hnone, rfl⟩⟩, rfl⟩

theorem rest (h : s.ended = true) (hs : s.rest = some s') : Rests s s' := by
  rw [Sending.rest] at hs
  split at hs
  · rename_i hp
    obtain rfl := Option.some.inj hs
    refine ⟨h, rfl, rfl, rfl, .inl ?_⟩
    rw [result?, result?, hp]
  · cases hs

theorem take (h : s.ended = true) (hs : s.take = some s') : Rests s s' := by
  rw [Sending.take] at hs
  split at hs
  · cases hs
  · obtain ⟨m, -, rfl⟩ := Option.map_eq_some_iff.1 hs
    exact ⟨h, rfl, rfl, rfl, .inl rfl⟩

theorem close (h : s.ended = true) : Rests s s.close := ⟨h, rfl, rfl, rfl, .inl rfl⟩

theorem tellToEnd (s : Sending π α) : Rests s s.tellToEnd := ⟨rfl, rfl, rfl, rfl, .inl rfl⟩

theorem isSome_go (h : s.ended = true) (hnone : s.result? = none) : (s.go ask limits).isSome := by
  rw [result?] at hnone
  rw [Sending.go, h]
  split
  · rfl
  · rfl
  · rfl
  · rename_i hp
    rw [hp] at hnone
    cases hnone

end Rests

end Sending

end CallCheck.Worker

import CallCheck.Proofs.Worker.Conveying
import Mathlib.Data.ENat.Lattice
import Mathlib.Data.List.Basic
import Mathlib.Data.List.Induction
import Mathlib.Data.List.Infix
import Mathlib.Order.CompletePartialOrder

/-!
# What the sending loop asks for

The loop, the transport and those who tell the loop to end take turns in any order. To speak of how
often the provider has been asked it is given a log: `Source.recorded` answers as the provider does
and writes down each answer. The log changes nothing else (`Sending.forget_run`).

## The invariant

`Sending.Asks` says where a loop can be by what is in the log. While the loop goes on, every message
in the log but perhaps the last has been handed over. The loop asks again only after a message that
need not be the last, so no other answer has anything after it. When the loop has ended,
`Sending.Ends` says why.

## How much a provider gives

A provider that never ends gives any number of messages, so `yields` counts in `ℕ∞`, and so does
`Call.Limits.cap`. A loop that nobody stops hands over as many as the smaller of the two.

## Main statement

`sending_of_turns`: what has been asked and handed over after any turns.
-/

namespace CallCheck

namespace Call.Limits

/-- How many messages are enough, if any number is. -/
def cap (l : Limits) : ℕ∞ :=
  match l.messages with
  | some max => if 0 < max then max else ⊤
  | none => ⊤

theorem reached_iff_cap_le (l : Limits) (count : Nat) :
    l.reached count = true ↔ l.cap ≤ count := by
  rw [l.reached_iff, cap]
  cases l.messages with
  | none => simp
  | some max => by_cases hpos : 0 < max <;> simp [hpos]

theorem succ_le_cap {l : Limits} {count : Nat} (h : l.reached count = false) :
    ((count + 1 : Nat) : ℕ∞) ≤ l.cap := by
  have hlt : (count : ℕ∞) < l.cap := by
    rw [← not_le, ← l.reached_iff_cap_le, h]
    exact Bool.false_ne_true
  rw [Nat.cast_succ]
  exact Order.add_one_le_of_lt hlt

end Call.Limits

namespace Worker

open Call (Error Limits Supply)

variable {π α : Type} {ask : Source π α} {limits : Limits} {provider : π}

/-! ## Logs -/

/-- What a provider has answered, the latest last. -/
abbrev Log (α : Type) := List (Except Error (Supply α))

/-- The provider with a log of its answers. -/
def Source.recorded (ask : Source π α) : Source (π × Log α) α := fun (s, log) ↦
  let (answer, s) := ask s
  (answer, (s, log ++ [answer]))

/-- The message that an answer gives. -/
def message? : Except Error (Supply α) → Option α
  | .ok (.message m) => some m
  | .ok (.last m) => some m
  | _ => none

/-- The answer that gives a message. -/
def offer (m : α) (last : Bool) : Except Error (Supply α) :=
  .ok (if last then .last m else .message m)

/-- A log of messages, none of which has to be the last. -/
def messages (ms : List α) : Log α := ms.map fun m ↦ offer m false

theorem messages_concat (ms : List α) (m : α) :
    messages (ms ++ [m]) = messages ms ++ [offer m false] := List.map_append

@[simp] theorem length_messages (ms : List α) : (messages ms).length = ms.length :=
  List.length_map _

@[simp] theorem filterMap_messages (ms : List α) : (messages ms).filterMap message? = ms := by
  rw [messages, List.filterMap_map]
  exact List.filterMap_some

/-! ## Asking in a row -/

/-- A provider and its log after it has been asked so many times. -/
def asked (ask : Source π α) (provider : π) : Nat → π × Log α
  | 0 => (provider, [])
  | n + 1 => (ask.recorded (asked ask provider n)).2

/-- A provider whose answers all were messages has given these, and gives the others from there. -/
theorem supplied_of_asked {n : Nat} {front : List α}
    (h : (asked ask provider n).2 = messages front) (k : Nat) :
    supplied ask (n + k) provider = front ++ supplied ask k (asked ask provider n).1 := by
  induction n generalizing front k with
  | zero =>
    obtain rfl : front = [] := List.map_eq_nil_iff.1 h.symm
    rw [Nat.zero_add, List.nil_append]
    rfl
  | succ n ih =>
    change (asked ask provider n).2 ++ [(ask (asked ask provider n).1).1] = messages front at h
    obtain ⟨before, last, rfl, hbefore, hlast⟩ := List.map_eq_append_iff.1 h.symm
    obtain ⟨m, rfl, hm⟩ := List.map_eq_singleton_iff.1 hlast
    have hanswer : ask (asked ask provider n).1 =
        (.ok (.message m), (asked ask provider (n + 1)).1) := Prod.ext hm.symm rfl
    rw [Nat.add_right_comm, Nat.add_assoc, ih hbefore.symm, supplied, hanswer, List.append_assoc]
    rfl

theorem length_supplied_le (n k : Nat) :
    (supplied ask n provider).length ≤ (supplied ask (n + k) provider).length := by
  induction n generalizing provider with
  | zero => exact Nat.zero_le _
  | succ n ih =>
    rw [Nat.add_right_comm, supplied, supplied]
    split
    · exact Nat.succ_le_succ ih
    · exact Nat.le_refl _
    · exact Nat.le_refl _

/-- How many messages a provider gives before the end or a failure, the last message included. -/
noncomputable def yields (ask : Source π α) (provider : π) : ℕ∞ :=
  ⨆ n, ((supplied ask n provider).length : ℕ∞)

theorem length_le_yields {n : Nat} {front : List α}
    (h : (asked ask provider n).2 = messages front) :
    (front.length : ℕ∞) ≤ yields ask provider := by
  have hfront : supplied ask n provider = front := by
    simpa [supplied] using supplied_of_asked h 0
  rw [← hfront]
  exact le_iSup (fun n ↦ ((supplied ask n provider).length : ℕ∞)) n

/-- A provider with an answer that is no message, or the last, has given all messages. -/
theorem yields_eq_of_asked {n : Nat} {front : List α} {answer : Except Error (Supply α)}
    (h : (asked ask provider n).2 = messages front ++ [answer])
    (hanswer : ∀ m, answer ≠ .ok (.message m)) :
    yields ask provider = ((front ++ (message? answer).toList).length : ℕ∞) := by
  obtain ⟨k, rfl⟩ : ∃ k, n = k + 1 := by
    refine Nat.exists_eq_succ_of_ne_zero ?_
    rintro rfl
    exact absurd h.symm (List.append_ne_nil_of_right_ne_nil _ (List.cons_ne_nil _ _))
  obtain ⟨hfront, hlast⟩ := List.append_inj' h rfl
  obtain rfl : (ask (asked ask provider k).1).1 = answer := (List.cons.inj hlast).1
  have hall (more : Nat) : supplied ask (k + (more + 1)) provider =
      front ++ (message? (ask (asked ask provider k).1).1).toList := by
    rw [supplied_of_asked hfront, supplied]
    generalize ask (asked ask provider k).1 = reply at hanswer
    obtain ⟨answer, next⟩ := reply
    rcases answer with e | (m | m | -)
    · rfl
    · exact absurd rfl (hanswer m)
    · rfl
    · rfl
  refine le_antisymm (iSup_le fun n ↦ ?_) ?_
  · rw [← hall n, Nat.cast_le, ← Nat.add_assoc, Nat.add_right_comm, Nat.add_comm _ n]
    exact length_supplied_le n _
  · rw [← hall 0]
    exact le_iSup (fun n ↦ ((supplied ask n provider).length : ℕ∞)) _

/-! ## Turns -/

/-- What tells the loop to end. -/
inductive Token
  /-- The call is stopped, or its time is over. -/
  | cancel
  /-- The receiving side has finished. -/
  | done
  deriving DecidableEq, Repr

/-- Who has a turn. -/
inductive Turn
  /-- The loop goes on. -/
  | go
  /-- The pause is over. -/
  | rest
  /-- The transport takes a message. -/
  | take
  /-- The transport takes no more messages. -/
  | close
  /-- The loop is told to end. -/
  | fire (token : Token)
  deriving DecidableEq, Repr

namespace Sending

/-- A turn. One that cannot be taken changes nothing. -/
def turn (ask : Source π α) (limits : Limits) (s : Sending π α) : Turn → Sending π α
  | .go => (s.go ask limits).getD s
  | .rest => s.rest.getD s
  | .take => s.take.getD s
  | .close => s.close
  | .fire _ => s.tellToEnd

/-- The loop after some turns. -/
def run (ask : Source π α) (limits : Limits) (provider : π) (turns : List Turn) : Sending π α :=
  turns.foldl (turn ask limits) { provider }

theorem run_concat (turns : List Turn) (t : Turn) :
    run ask limits provider (turns ++ [t]) = turn ask limits (run ask limits provider turns) t :=
  List.foldl_concat ..

theorem run_append (turns later : List Turn) :
    run ask limits provider (turns ++ later) =
      later.foldl (turn ask limits) (run ask limits provider turns) := List.foldl_append

/-- The loop without the log. -/
def forget (s : Sending (π × Log α) α) : Sending π α := { s with provider := s.provider.1 }

theorem forget_answered (s : Sending (π × Log α) α) (answer : Except Error (Supply α)) :
    (s.answered answer).forget = s.forget.answered answer := by
  match answer with
  | .error e => rfl
  | .ok (.message m) => rfl
  | .ok (.last m) => rfl
  | .ok .finished => rfl

theorem forget_handed (s : Sending (π × Log α) α) (m : α) (last : Bool) :
    (s.handed limits m last).forget = s.forget.handed limits m last := by
  rw [handed, handed]
  change forget (if last || limits.reached (s.sent + 1) then _ else _) =
    if last || limits.reached (s.sent + 1) then _ else _
  split <;> rfl

theorem forget_go (s : Sending (π × Log α) α) :
    (s.go ask.recorded limits).map forget = s.forget.go ask limits := by
  obtain ⟨⟨provider, log⟩, phase, sent, channel, closed, ended⟩ := s
  cases phase with
  | ready =>
    cases ended with
    | true => rfl
    | false => exact congrArg some (forget_answered _ _)
  | offering m last =>
    simp only [go, apply_ite (Option.map forget), Option.map_some, Option.map_none, forget_handed]
    rfl
  | pausing => cases ended <;> rfl
  | finished result => rfl

theorem forget_rest (s : Sending (π × Log α) α) : s.rest.map forget = s.forget.rest := by
  obtain ⟨provider, phase, sent, channel, closed, ended⟩ := s
  cases phase <;> rfl

theorem forget_take (s : Sending (π × Log α) α) : s.take.map forget = s.forget.take := by
  rw [take, take, apply_ite (Option.map forget), Option.map_none, Option.map_map]
  rfl

theorem forget_turn (s : Sending (π × Log α) α) (t : Turn) :
    (turn ask.recorded limits s t).forget = turn ask limits s.forget t := by
  have hgetD (o : Option (Sending (π × Log α) α)) :
      (o.getD s).forget = (o.map forget).getD s.forget := by
    cases o <;> rfl
  cases t with
  | go => rw [turn, turn, hgetD, forget_go]
  | rest => rw [turn, turn, hgetD, forget_rest]
  | take => rw [turn, turn, hgetD, forget_take]
  | close => rfl
  | fire token => rfl

theorem forget_run (turns : List Turn) :
    (run ask.recorded limits (provider, []) turns).forget = run ask limits provider turns := by
  induction turns using List.reverseRecOn with
  | nil => rfl
  | append_singleton turns t ih => rw [run_concat, run_concat, forget_turn, ih]

/-! ## What has been asked and handed over -/

/-- Why a loop has ended that has handed over some messages, by what is in the log. -/
inductive Ends (stopped : Prop) (limits : Limits) :
    List α → Log α → Except Error Unit → Prop
  /-- It was stopped before it asked again. -/
  | quit (sent : List α) : stopped → Ends stopped limits sent (messages sent) (.ok ())
  /-- It has handed over enough. -/
  | enough (sent : List α) : limits.reached sent.length = true →
      Ends stopped limits sent (messages sent) (.ok ())
  /-- It was stopped with a message that waited for room. -/
  | withheld (sent : List α) (m : α) (last : Bool) : stopped →
      Ends stopped limits sent (messages sent ++ [offer m last]) (.ok ())
  /-- It has handed over the last message. -/
  | last (sent : List α) (m : α) :
      Ends stopped limits (sent ++ [m]) (messages sent ++ [offer m true]) (.ok ())
  /-- The provider had no more. -/
  | finished (sent : List α) :
      Ends stopped limits sent (messages sent ++ [.ok .finished]) (.ok ())
  /-- The provider has failed. -/
  | failed (sent : List α) (e : Error) :
      Ends stopped limits sent (messages sent ++ [.error e]) (.error e)

theorem Ends.imp {stopped stopped' : Prop} {sent : List α} {log : Log α}
    {result : Except Error Unit} (h : Ends stopped limits sent log result)
    (himp : stopped → stopped') : Ends stopped' limits sent log result := by
  cases h with
  | quit _ hstopped => exact .quit _ (himp hstopped)
  | enough _ hreached => exact .enough _ hreached
  | withheld _ _ _ hstopped => exact .withheld _ _ _ (himp hstopped)
  | last => exact .last _ _
  | finished => exact .finished _
  | failed => exact .failed _ _

variable {s s' : Sending (π × Log α) α}

/-- Where a loop can be by what is in the log. -/
def PhaseAsks (limits : Limits) (s : Sending (π × Log α) α) : Prop :=
  match s.phase with
  | .ready | .pausing =>
    s.provider.2 = messages s.channel.written ∧ limits.reached s.sent = false
  | .offering m last =>
    s.provider.2 = messages s.channel.written ++ [offer m last] ∧ limits.reached s.sent = false
  | .finished result =>
    Ends (s.ended = true ∨ s.closed = true) limits s.channel.written s.provider.2 result

/-- The loop asks a provider and hands its messages over. -/
structure Asks (ask : Source π α) (limits : Limits) (provider : π)
    (s : Sending (π × Log α) α) : Prop where
  /-- What has been handed over is counted. -/
  sent_eq : s.sent = s.channel.written.length
  /-- No more is handed over than is enough. -/
  sent_le : (s.sent : ℕ∞) ≤ limits.cap
  /-- The provider has been asked as often as the log says. -/
  provider_eq : ∃ n, s.provider = asked ask provider n
  /-- The loop is where it can be. -/
  phase : PhaseAsks limits s

namespace Asks

theorem start : Asks ask limits provider { provider := (provider, []) } where
  sent_eq := rfl
  sent_le := bot_le
  provider_eq := ⟨0, rfl⟩
  phase := ⟨rfl, limits.reached_zero⟩

theorem answered (h : Asks ask limits provider s) (hp : s.phase = .ready) :
    Asks ask limits provider (Sending.answered { s with provider := (ask.recorded s.provider).2 }
      (ask.recorded s.provider).1) := by
  have hphase := h.phase
  rw [PhaseAsks, hp] at hphase
  obtain ⟨hlog, hreached⟩ := hphase
  have hprovider : ∃ n, (ask.recorded s.provider).2 = asked ask provider n := by
    obtain ⟨n, hn⟩ := h.provider_eq
    exact ⟨n + 1, by rw [hn]; rfl⟩
  have hlog' : (ask.recorded s.provider).2.2 =
      messages s.channel.written ++ [(ask.recorded s.provider).1] := by
    rw [← hlog]
    rfl
  generalize (ask.recorded s.provider).2 = next at hprovider hlog' ⊢
  match hanswer : (ask.recorded s.provider).1, hlog' with
  | .ok (.message m), hlog' => exact ⟨h.sent_eq, h.sent_le, hprovider, hlog', hreached⟩
  | .ok (.last m), hlog' => exact ⟨h.sent_eq, h.sent_le, hprovider, hlog', hreached⟩
  | .ok .finished, hlog' =>
    exact ⟨h.sent_eq, h.sent_le, hprovider, by rw [PhaseAsks]; exact hlog' ▸ .finished _⟩
  | .error e, hlog' =>
    exact ⟨h.sent_eq, h.sent_le, hprovider, by rw [PhaseAsks]; exact hlog' ▸ .failed _ e⟩

theorem handed {m : α} {last : Bool} (h : Asks ask limits provider s)
    (hp : s.phase = .offering m last) : Asks ask limits provider (s.handed limits m last) := by
  have hphase := h.phase
  rw [PhaseAsks, hp] at hphase
  obtain ⟨hlog, hreached⟩ := hphase
  have hsent : s.sent + 1 = (s.channel.put m).written.length := by
    rw [Pipe.written_put, List.length_append, List.length_singleton, h.sent_eq]
  have hle : ((s.sent + 1 : Nat) : ℕ∞) ≤ limits.cap := Limits.succ_le_cap hreached
  rw [Sending.handed]
  dsimp only
  cases last with
  | true =>
    exact ⟨hsent, hle, h.provider_eq, by rw [PhaseAsks]; exact hlog ▸ .last _ m⟩
  | false =>
    have hlog' : s.provider.2 = messages (s.channel.put m).written := by
      rw [hlog, Pipe.written_put, messages_concat]
    rw [Bool.false_or]
    cases hnext : limits.reached (s.sent + 1) with
    | true =>
      refine ⟨hsent, hle, h.provider_eq, ?_⟩
      rw [PhaseAsks]
      exact hlog' ▸ .enough _ (hsent ▸ hnext)
    | false =>
      refine ⟨hsent, hle, h.provider_eq, ?_⟩
      rw [PhaseAsks]
      cases limits.interval <;> exact ⟨hlog', hnext⟩

theorem finish (h : Asks ask limits provider s) (hnone : s.result? = none)
    (hstopped : s.ended = true ∨ s.closed = true) : Asks ask limits provider s.finish := by
  refine ⟨h.sent_eq, h.sent_le, h.provider_eq, ?_⟩
  have hphase := h.phase
  rw [PhaseAsks] at hphase ⊢
  rw [result?] at hnone
  change Ends _ limits s.channel.written s.provider.2 (.ok ())
  split at hphase
  · exact hphase.1 ▸ .quit _ hstopped
  · exact hphase.1 ▸ .quit _ hstopped
  · exact hphase.1 ▸ .withheld _ _ _ hstopped
  · rename_i hp
    rw [hp] at hnone
    cases hnone

theorem go (h : Asks ask limits provider s) (hs : s.go ask.recorded limits = some s') :
    Asks ask limits provider s' := by
  rw [Sending.go] at hs
  split at hs
  · rename_i hp
    split at hs
    · rename_i hended
      obtain rfl := Option.some.inj hs
      exact h.finish (by rw [result?, hp]) (.inl hended)
    · obtain rfl := Option.some.inj hs
      exact h.answered hp
  · rename_i hp
    split at hs
    · rename_i hstopped
      obtain rfl := Option.some.inj hs
      exact h.finish (by rw [result?, hp]) (by simpa using hstopped)
    · split at hs
      · obtain rfl := Option.some.inj hs
        exact h.handed hp
      · cases hs
  · rename_i hp
    split at hs
    · rename_i hended
      obtain rfl := Option.some.inj hs
      exact h.finish (by rw [result?, hp]) (.inl hended)
    · cases hs
  · cases hs

theorem rest (h : Asks ask limits provider s) (hs : s.rest = some s') :
    Asks ask limits provider s' := by
  rw [Sending.rest] at hs
  split at hs
  · rename_i hp
    obtain rfl := Option.some.inj hs
    have hphase := h.phase
    rw [PhaseAsks, hp] at hphase
    exact ⟨h.sent_eq, h.sent_le, h.provider_eq, hphase⟩
  · cases hs

theorem take (h : Asks ask limits provider s) (hs : s.take = some s') :
    Asks ask limits provider s' := by
  rw [Sending.take] at hs
  split at hs
  · cases hs
  · obtain ⟨m, -, rfl⟩ := Option.map_eq_some_iff.1 hs
    exact ⟨h.sent_eq, h.sent_le, h.provider_eq, h.phase⟩

theorem stop (h : Asks ask limits provider s) {ended closed : Bool}
    (hended : s.ended = true → ended = true) (hclosed : s.closed = true → closed = true) :
    Asks ask limits provider { s with ended, closed } := by
  refine ⟨h.sent_eq, h.sent_le, h.provider_eq, ?_⟩
  have hphase := h.phase
  rw [PhaseAsks] at hphase ⊢
  dsimp only
  split at hphase
  · exact hphase
  · exact hphase
  · exact hphase
  · exact hphase.imp (Or.imp hended hclosed)

theorem turn (h : Asks ask limits provider s) (t : Turn) :
    Asks ask limits provider (turn ask.recorded limits s t) := by
  cases t with
  | go =>
    rw [Sending.turn]
    cases hs : s.go ask.recorded limits with
    | none => exact h
    | some s' => exact h.go hs
  | rest =>
    rw [Sending.turn]
    cases hs : s.rest with
    | none => exact h
    | some s' => exact h.rest hs
  | take =>
    rw [Sending.turn]
    cases hs : s.take with
    | none => exact h
    | some s' => exact h.take hs
  | close => exact h.stop (fun hended ↦ hended) fun _ ↦ rfl
  | fire token => exact h.stop (fun _ ↦ rfl) fun hclosed ↦ hclosed

theorem run (turns : List Turn) :
    Asks ask limits provider (run ask.recorded limits (provider, []) turns) := by
  induction turns using List.reverseRecOn with
  | nil => exact .start
  | append_singleton turns t ih =>
    rw [run_concat]
    exact ih.turn t

/-- Everything in the log but the last answer has been handed over, and that one perhaps too. -/
theorem log_eq (h : Asks ask limits provider s) :
    s.provider.2 = messages s.channel.written ∨
      (∃ answer, s.provider.2 = messages s.channel.written ++ [answer]) ∨
        ∃ front m, s.channel.written = front ++ [m] ∧
          s.provider.2 = messages front ++ [offer m true] := by
  have hphase := h.phase
  rw [PhaseAsks] at hphase
  split at hphase
  · exact .inl hphase.1
  · exact .inl hphase.1
  · exact .inr (.inl ⟨_, hphase.1⟩)
  · generalize s.channel.written = sent at hphase ⊢
    generalize s.provider.2 = log at hphase ⊢
    cases hphase with
    | quit | enough => exact .inl rfl
    | withheld | finished | failed => exact .inr (.inl ⟨_, rfl⟩)
    | last front m => exact .inr (.inr ⟨front, m, rfl, rfl⟩)

theorem written_eq (h : Asks ask limits provider s) :
    s.channel.written = (s.provider.2.filterMap message?).take s.sent := by
  rw [h.sent_eq]
  rcases h.log_eq with hlog | ⟨answer, hlog⟩ | ⟨front, m, hwritten, hlog⟩
  · rw [hlog, filterMap_messages, List.take_length]
  · rw [hlog, List.filterMap_append, filterMap_messages, List.take_left]
  · rw [hwritten, hlog, List.filterMap_append, filterMap_messages]
    exact (List.take_length (l := front ++ [m])).symm

/-- The loop is at most one answer ahead. -/
theorem length_log_le (h : Asks ask limits provider s) : s.provider.2.length ≤ s.sent + 1 := by
  rw [h.sent_eq]
  rcases h.log_eq with hlog | ⟨answer, hlog⟩ | ⟨front, m, hwritten, hlog⟩
  · rw [hlog, length_messages]
    exact Nat.le_succ _
  · rw [hlog, List.length_append, length_messages]
    exact Nat.le_refl _
  · rw [hlog, hwritten, List.length_append, List.length_append, length_messages]
    exact Nat.le_succ _

theorem exists_message_of_mem_dropLast (h : Asks ask limits provider s)
    {answer : Except Error (Supply α)} (hanswer : answer ∈ s.provider.2.dropLast) :
    ∃ m, answer = .ok (.message m) := by
  have hmessages {ms : List α} (hmem : answer ∈ messages ms) : ∃ m, answer = .ok (.message m) := by
    obtain ⟨m, -, rfl⟩ := List.mem_map.1 hmem
    exact ⟨m, rfl⟩
  rcases h.log_eq with hlog | ⟨_, hlog⟩ | ⟨front, m, -, hlog⟩
  · exact hmessages (hlog ▸ List.mem_of_mem_dropLast hanswer)
  · rw [hlog, List.dropLast_concat] at hanswer
    exact hmessages hanswer
  · rw [hlog, List.dropLast_concat] at hanswer
    exact hmessages hanswer

theorem isSome_result (h : Asks ask limits provider s) (hreached : limits.reached s.sent = true) :
    s.result?.isSome := by
  have hphase := h.phase
  rw [PhaseAsks] at hphase
  rw [result?]
  split at hphase
  · exact absurd (hphase.2.symm.trans hreached) Bool.false_ne_true
  · exact absurd (hphase.2.symm.trans hreached) Bool.false_ne_true
  · exact absurd (hphase.2.symm.trans hreached) Bool.false_ne_true
  · rename_i hp
    rw [hp]
    rfl

/-- A loop that has failed has handed over everything that was given before the failure. -/
theorem log_eq_of_error (h : Asks ask limits provider s) {e : Error}
    (hresult : s.result? = some (.error e)) :
    s.provider.2 = messages s.channel.written ++ [.error e] := by
  obtain ⟨result, hp⟩ := phase_of_result (Option.isSome_of_eq_some hresult)
  have hphase := h.phase
  rw [PhaseAsks, hp] at hphase
  rw [result?, hp] at hresult
  obtain rfl := Option.some.inj hresult
  generalize s.channel.written = sent at hphase ⊢
  generalize s.provider.2 = log at hphase ⊢
  cases hphase with
  | failed => rfl

theorem result_eq_error_iff (h : Asks ask limits provider s) (e : Error) :
    s.result? = some (.error e) ↔ s.provider.2.getLast? = some (.error e) := by
  refine ⟨fun hresult ↦ ?_, fun hlast ↦ ?_⟩
  · rw [h.log_eq_of_error hresult, List.getLast?_concat]
  · have hmessages (ms : List α) : (messages ms).getLast? ≠ some (.error e) := by
      intro hlast
      obtain ⟨m, -, hm⟩ := List.mem_map.1 (List.mem_of_getLast? hlast)
      cases hm
    have hphase := h.phase
    rw [PhaseAsks] at hphase
    rw [result?]
    split at hphase
    · exact absurd (hphase.1 ▸ hlast) (hmessages _)
    · exact absurd (hphase.1 ▸ hlast) (hmessages _)
    · rw [hphase.1, List.getLast?_concat] at hlast
      cases hlast
    · rename_i result hp
      rw [hp]
      generalize s.channel.written = sent at hphase
      generalize s.provider.2 = log at hphase hlast
      cases hphase with
      | quit | enough => exact absurd hlast (hmessages _)
      | withheld | last | finished =>
        rw [List.getLast?_concat] at hlast
        cases hlast
      | failed sent e' =>
        rw [List.getLast?_concat] at hlast
        obtain rfl := Except.error.inj (Option.some.inj hlast)
        rfl

/-- A loop that has ended and was not stopped has handed over all there was, or enough. -/
theorem sent_eq_min (h : Asks ask limits provider s) (hsome : s.result?.isSome)
    (hended : s.ended = false) (hclosed : s.closed = false) :
    (s.sent : ℕ∞) = min limits.cap (yields ask provider) := by
  obtain ⟨n, hn⟩ := h.provider_eq
  obtain ⟨result, hp⟩ := phase_of_result hsome
  have hphase := h.phase
  rw [PhaseAsks, hp, hn] at hphase
  have hsent := h.sent_eq
  have hle := h.sent_le
  have hall (hyields : yields ask provider = s.sent) :
      (s.sent : ℕ∞) = min limits.cap (yields ask provider) := by
    rw [hyields, min_eq_right hle]
  generalize hwritten : s.channel.written = sent at hphase hsent
  generalize hlog : (asked ask provider n).2 = log at hphase
  cases hphase with
  | quit _ hstopped => simp [hended, hclosed] at hstopped
  | withheld _ _ _ hstopped => simp [hended, hclosed] at hstopped
  | enough _ hreached =>
    have hcap : limits.cap = s.sent := by
      rw [limits.reached_iff_cap_le, ← hsent] at hreached
      exact le_antisymm hreached hle
    rw [hcap, min_eq_left]
    exact hsent ▸ length_le_yields hlog
  | last front m =>
    refine hall ?_
    rw [yields_eq_of_asked hlog (by simp [offer]), hsent]
    rfl
  | finished =>
    refine hall ?_
    rw [yields_eq_of_asked hlog (by simp), hsent]
    simp [message?]
  | failed sent e =>
    refine hall ?_
    rw [yields_eq_of_asked hlog (by simp), hsent]
    simp [message?]

end Asks

/-! ## Loops that ask no more, and loops that nobody stops -/

/-- A loop that has been told to end, or has ended, asks no more, whatever turns follow. -/
theorem provider_foldl {s : Sending π α} (h : s.ended = true ∨ s.result?.isSome)
    (later : List Turn) : (later.foldl (turn ask limits) s).provider = s.provider := by
  have hturn {s : Sending π α} (h : s.ended = true ∨ s.result?.isSome) (t : Turn) :
      ((turn ask limits s t).ended = true ∨ (turn ask limits s t).result?.isSome) ∧
        (turn ask limits s t).provider = s.provider := by
    cases t with
    | go =>
      rw [turn]
      cases hs : s.go ask limits with
      | none => exact ⟨h, rfl⟩
      | some s' =>
        rcases h with hended | hsome
        · have hrests := (Rests.go hended hs).1
          exact ⟨.inl hrests.ended, hrests.provider_eq⟩
        · rw [go_eq_none hsome] at hs
          cases hs
    | rest =>
      rw [turn]
      cases hs : s.rest with
      | none => exact ⟨h, rfl⟩
      | some s' =>
        rcases h with hended | hsome
        · have hrests := Rests.rest hended hs
          exact ⟨.inl hrests.ended, hrests.provider_eq⟩
        · rw [rest_eq_none hsome] at hs
          cases hs
    | take =>
      rw [turn, take]
      split
      · exact ⟨h, rfl⟩
      · cases s.channel.next? with
        | none => exact ⟨h, rfl⟩
        | some m => exact ⟨h, rfl⟩
    | close => exact ⟨h, rfl⟩
    | fire token => exact ⟨.inl rfl, rfl⟩
  induction later generalizing s with
  | nil => rfl
  | cons t later ih =>
    obtain ⟨hthrough, hprovider⟩ := hturn h t
    exact (ih hthrough).trans hprovider

theorem not_stopped_run {turns : List Turn} (hclose : .close ∉ turns)
    (hfire : ∀ token, .fire token ∉ turns) :
    (run ask limits provider turns).ended = false ∧
      (run ask limits provider turns).closed = false := by
  induction turns using List.reverseRecOn with
  | nil => exact ⟨rfl, rfl⟩
  | append_singleton turns t ih =>
    simp only [List.mem_append, List.mem_singleton, not_or] at hclose hfire
    obtain ⟨hended, hclosed⟩ := ih hclose.1 fun token ↦ (hfire token).1
    have hkeep {s s' : Sending π α} (h : Advances s s') (hs : s.ended = false ∧ s.closed = false) :
        s'.ended = false ∧ s'.closed = false := ⟨h.ended_eq.trans hs.1, h.closed_eq.trans hs.2⟩
    rw [run_concat]
    generalize run ask limits provider turns = s at hended hclosed ⊢
    cases t with
    | go =>
      rw [turn]
      cases hs : s.go ask limits with
      | none => exact ⟨hended, hclosed⟩
      | some s' => exact hkeep (advances_of_go hs) ⟨hended, hclosed⟩
    | rest =>
      rw [turn]
      cases hs : s.rest with
      | none => exact ⟨hended, hclosed⟩
      | some s' => exact hkeep (advances_of_rest hs) ⟨hended, hclosed⟩
    | take =>
      rw [turn]
      cases hs : s.take with
      | none => exact ⟨hended, hclosed⟩
      | some s' => exact hkeep (advances_of_take hs) ⟨hended, hclosed⟩
    | close => exact absurd rfl hclose.2
    | fire token => exact absurd rfl (hfire token).2

end Sending

open Sending in
/-- **The sending loop.** After any turns, with any provider and any limits: what has been handed to
the transport is the first messages that the provider has answered with, as many as are counted, and
no more than are enough. The provider has been asked at most once more than that, and always after a
message that need not be the last; once enough has been handed over, or the loop has been told to
end, or has ended, it is not asked again. The loop fails exactly if the last answer was a failure,
with that failure, and all messages before it have been handed over. A loop that nobody stops has,
when it ends, handed over as many messages as the smaller of the limit and of what there is. -/
theorem sending_of_turns (ask : Source π α) (limits : Limits) (provider : π) (turns : List Turn) :
    let s := run ask.recorded limits (provider, []) turns
    s.forget = run ask limits provider turns ∧
      (s.channel.written = (s.provider.2.filterMap message?).take s.sent ∧
        s.sent = s.channel.written.length) ∧
      (s.sent : ℕ∞) ≤ limits.cap ∧
      (s.provider.2.length ≤ s.sent + 1 ∧
        (∀ answer ∈ s.provider.2.dropLast, ∃ m, answer = .ok (.message m)) ∧
        (limits.reached s.sent = true ∨ s.ended = true ∨ s.result?.isSome →
          ∀ later, (run ask.recorded limits (provider, []) (turns ++ later)).provider =
            s.provider)) ∧
      (∀ e, (s.result? = some (.error e) ↔ s.provider.2.getLast? = some (.error e)) ∧
        (s.result? = some (.error e) →
          s.provider.2 = messages s.channel.written ++ [.error e])) ∧
      (.close ∉ turns → (∀ token, .fire token ∉ turns) → s.result?.isSome →
        (s.sent : ℕ∞) = min limits.cap (yields ask provider)) := by
  intro s
  have hasks : Asks ask limits provider s := .run turns
  refine ⟨forget_run turns, ⟨hasks.written_eq, hasks.sent_eq⟩, hasks.sent_le,
    ⟨hasks.length_log_le, fun answer ↦ hasks.exists_message_of_mem_dropLast, fun h later ↦ ?_⟩,
    fun e ↦ ⟨hasks.result_eq_error_iff e, hasks.log_eq_of_error⟩, fun hclose hfire hsome ↦ ?_⟩
  · rw [run_append]
    refine provider_foldl ?_ later
    rcases h with hreached | h
    · exact .inr (hasks.isSome_result hreached)
    · exact h
  · obtain ⟨hended, hclosed⟩ := not_stopped_run hclose hfire
    exact hasks.sent_eq_min hsome hended hclosed

/-- Gives the numbers below two, and two as the last. -/
def upToTwo : Source Nat Nat := fun n ↦ (offer n (decide (2 ≤ n)), n + 1)

open Sending in
/-- Nobody stops a loop that hands over three messages, the last of which says so. It has asked for
nothing else, and there is nothing else. -/
theorem sending_of_turns_last :
    let turns : List Turn := [.go, .go, .take, .go, .go, .take, .go, .go]
    let s := run upToTwo.recorded {} (0, []) turns
    .close ∉ turns ∧ (∀ token, .fire token ∉ turns) ∧ s.result?.isSome ∧
      s.channel.written = [0, 1, 2] ∧ s.provider.2.length = 3 ∧ yields upToTwo 0 = 3 := by
  intro turns s
  have hclose : .close ∉ turns := by decide
  have hfire (token : Token) : .fire token ∉ turns := by cases token <;> decide
  have hsome : s.result?.isSome := by decide
  obtain ⟨-, -, -, -, -, hmin⟩ := sending_of_turns upToTwo {} 0 turns
  have hyields := hmin hclose hfire hsome
  rw [show Limits.cap {} = ⊤ from rfl, min_eq_right le_top] at hyields
  exact ⟨hclose, hfire, hsome, by decide, by decide, hyields.symm⟩

end Worker

end CallCheck

import CallCheck.Session.Connectivity
import Mathlib.Data.List.Induction
import Mathlib.Data.List.Infix

/-!
# What a connection says about itself

The steps of a connection may come in any order, as long as no socket is dropped that is not open.
What is known then is compared with the steps that led to it: `Connectivity.Tells` is the invariant
that ties the two together, and every step keeps it.

A close sets the flag and brings the state into line once, and from then on it only waits. Since
the last socket to go settles the state itself, nobody has to look again:
`Connectivity.waits_of_settled`.

## Main statement

`connectivity_of_events` says what is known after any steps: how many sockets there are, when the
connection is ready, when it is shut down, and that a close that has settled does not wait longer
than until the last socket is gone.
-/

namespace CallCheck.Session

variable {c : Connectivity} {events : List ConnectionEvent}

/-- Only sockets that are open are dropped. -/
def DropsOpen (events : List ConnectionEvent) : Prop :=
  ∀ before, before ++ [.dropped] <+: events → before.count .dropped < before.count .opened

/-- A close has set its flag, and after that it has settled the state. -/
def HasSettled (events : List ConnectionEvent) : Prop :=
  ∃ before later, events = before ++ .settle :: later ∧ .close ∈ before

instance (events : List ConnectionEvent) : Decidable (DropsOpen events) :=
  decidable_of_iff (∀ before ∈ events.inits, before ++ [.dropped] <+: events →
      before.count .dropped < before.count .opened)
    ⟨fun h before hbefore ↦
      h before ((List.mem_inits _ _).2 ((List.prefix_append _ _).trans hbefore)) hbefore,
      fun h before _ ↦ h before⟩

theorem DropsOpen.of_beginning {before : List ConnectionEvent} (h : DropsOpen events)
    (hbegin : before <+: events) : DropsOpen before :=
  fun _ hbefore ↦ h _ (hbefore.trans hbegin)

/-- What has settled stays so, and only a settling after the flag makes it so. -/
theorem hasSettled_concat (events : List ConnectionEvent) (e : ConnectionEvent) :
    HasSettled (events ++ [e]) ↔ HasSettled events ∨ (e = .settle ∧ .close ∈ events) := by
  constructor
  · rintro ⟨before, later, heq, hclose⟩
    rcases later.eq_nil_or_concat with rfl | ⟨later, last, rfl⟩
    · obtain ⟨rfl, hlast⟩ := List.append_inj' heq rfl
      obtain rfl : e = .settle := List.singleton_inj.1 hlast
      exact .inr ⟨rfl, hclose⟩
    · have hsplit : events ++ [e] = (before ++ .settle :: later) ++ [last] := by simpa using heq
      obtain ⟨rfl, -⟩ := List.append_inj' hsplit rfl
      exact .inl ⟨before, later, rfl, hclose⟩
  · rintro (⟨before, later, rfl, hclose⟩ | ⟨rfl, hclose⟩)
    · exact ⟨before, later ++ [e], by simp, hclose⟩
    · exact ⟨events, [], rfl, hclose⟩

namespace Connectivity

/-! ## One step -/

@[simp] theorem live_publish (c : Connectivity) (next : ConnectionState) :
    (c.publish next).live = c.live := by
  rw [publish]
  split <;> rfl

@[simp] theorem closing_publish (c : Connectivity) (next : ConnectionState) :
    (c.publish next).closing = c.closing := by
  rw [publish]
  split <;> rfl

theorem state_publish (h : c.state ≠ .shutdown) (next : ConnectionState) :
    (c.publish next).state = next := by
  rw [publish, if_neg h]

theorem state_publish_of_shutdown (h : c.state = .shutdown) (next : ConnectionState) :
    (c.publish next).state = .shutdown := by
  rw [publish, if_pos h, h]

@[simp] theorem closing_publishIdle (c : Connectivity) (next : ConnectionState) :
    (c.publishIdle next).closing = c.closing := by
  rw [publishIdle]
  split <;> simp

@[simp] theorem live_settle (c : Connectivity) : c.settle.live = c.live := by
  rw [settle]
  split <;> simp

@[simp] theorem closing_settle (c : Connectivity) : c.settle.closing = c.closing := by
  rw [settle]
  split <;> simp

theorem state_settle_of_closing (hlive : c.live = 0) (hclosing : c.closing = true) :
    c.settle.state = .shutdown := by
  rw [settle, if_neg (by omega), if_pos hclosing]
  by_cases h : c.state = .shutdown
  · exact state_publish_of_shutdown h _
  · exact state_publish h _

/-- The state is settled after every drop: as long as there are sockets that changes nothing. -/
theorem step_dropped (c : Connectivity) :
    c.step .dropped = settle { c with live := c.live - 1 } := by
  simp only [step]
  split
  · rfl
  · rename_i hlive
    rw [settle, if_pos (Nat.pos_of_ne_zero hlive)]

@[simp] theorem closing_step (c : Connectivity) (e : ConnectionEvent) :
    (c.step e).closing = (c.closing || decide (e = .close)) := by
  cases e with
  | opened => cases h : c.closing <;> simp [step, h]
  | dropped => simp [step_dropped]
  | _ => simp [step]

theorem state_step_of_shutdown (h : c.state = .shutdown) (e : ConnectionEvent) :
    (c.step e).state = .shutdown := by
  have hpublish (c' : Connectivity) (h' : c'.state = .shutdown) (next : ConnectionState) :
      (c'.publish next).state = .shutdown := state_publish_of_shutdown h' next
  cases e <;> simp only [step, publishIdle, settle] <;> grind

/-- A shutdown begins when the connection is being closed and has no socket. -/
theorem closing_of_shutdown (h : c.state ≠ .shutdown) {e : ConnectionEvent}
    (hstep : (c.step e).state = .shutdown) : (c.step e).closing = true ∧ (c.step e).live = 0 := by
  have hsettle (c' : Connectivity) (h' : c'.state ≠ .shutdown)
      (hnext : c'.settle.state = .shutdown) : c'.closing = true ∧ c'.live = 0 := by
    rw [settle] at hnext
    split at hnext
    · exact absurd hnext h'
    · rename_i hlive
      cases hclosing : c'.closing with
      | true => exact ⟨rfl, by omega⟩
      | false => simp [hclosing, state_publish h'] at hnext
  have hidle (next : ConnectionState) (hne : next ≠ .shutdown) :
      (c.publishIdle next).state ≠ .shutdown := by
    rw [publishIdle]
    split
    · rwa [state_publish h]
    · exact h
  cases e with
  | connecting => exact absurd hstep (hidle _ (by simp))
  | failed => exact absurd hstep (hidle _ (by simp))
  | close => exact absurd hstep h
  | settle => simpa [step] using hsettle c h hstep
  | opened =>
    cases hclosing : c.closing with
    | true => exact absurd (by simpa [step, hclosing] using hstep) h
    | false =>
      have hready := state_publish (c := { c with live := c.live + 1 }) h .ready
      rw [step, if_neg (by simp [hclosing]), hready] at hstep
      cases hstep
  | dropped =>
    rw [step_dropped] at hstep ⊢
    simpa using hsettle { c with live := c.live - 1 } h hstep

/-! ## All steps -/

theorem after_concat (events : List ConnectionEvent) (e : ConnectionEvent) :
    after (events ++ [e]) = (after events).step e := by
  rw [after, List.foldl_append]
  rfl

theorem after_append (before later : List ConnectionEvent) :
    after (before ++ later) = later.foldl step (after before) :=
  List.foldl_append

/-- What is known agrees with the steps that led to it. -/
structure Tells (events : List ConnectionEvent) (c : Connectivity) : Prop where
  /-- Sockets are open that have been opened and not dropped. -/
  live_add : c.live + events.count .dropped = events.count .opened
  /-- The flag is set once the connection is to be closed. -/
  closing_iff : c.closing = true ↔ .close ∈ events
  /-- Until then the connection is ready as long as there is a socket. -/
  ready_iff : c.closing = false → (c.state = .ready ↔ 0 < c.live)
  /-- Until then it is not shut down. -/
  closing_of_shutdown : c.state = .shutdown → c.closing = true
  /-- Without sockets it is shut down once a close has settled. -/
  shutdown_of_settled : HasSettled events → c.live = 0 → c.state = .shutdown

namespace Tells

theorem start : Tells [] {} where
  live_add := rfl
  closing_iff := by simp
  ready_iff := by simp
  closing_of_shutdown h := by cases h
  shutdown_of_settled h := by
    obtain ⟨before, later, heq, -⟩ := h
    simp at heq

theorem closing_of_settled (h : Tells events c) (hsettled : HasSettled events) :
    c.closing = true := by
  obtain ⟨before, later, rfl, hclose⟩ := hsettled
  exact h.closing_iff.2 (List.mem_append_left _ hclose)

theorem not_shutdown (h : Tells events c) (hclosing : c.closing = false) :
    c.state ≠ .shutdown := by
  intro hshutdown
  rw [h.closing_of_shutdown hshutdown] at hclosing
  cases hclosing

/-- A step that leaves the number of sockets as it is and closes nothing: while the connection is
open it may only say something else than before about having no socket. -/
theorem of_idle {c' : Connectivity} {e : ConnectionEvent} (h : Tells events c)
    (he : e = .connecting ∨ e = .failed) (next : ConnectionState) (hnext : next ≠ .ready)
    (hshutdown : next ≠ .shutdown) (hc' : c' = c.publishIdle next) : Tells (events ++ [e]) c' := by
  subst hc'
  have hsettled : HasSettled (events ++ [e]) → HasSettled events := by
    rw [hasSettled_concat]
    rcases he with rfl | rfl <;> simp
  have hcount : Tells (events ++ [e]) c := by
    refine ⟨?_, ?_, h.ready_iff, h.closing_of_shutdown,
      fun hset ↦ h.shutdown_of_settled (hsettled hset)⟩
    · rcases he with rfl | rfl <;> simpa using h.live_add
    · rcases he with rfl | rfl <;> simpa using h.closing_iff
  rw [publishIdle]
  split
  · rename_i hidle
    obtain ⟨hlive, hclosing⟩ := hidle
    have hstate := state_publish (h.not_shutdown hclosing) next
    refine ⟨by simpa using hcount.live_add, by simpa using hcount.closing_iff, ?_, ?_, ?_⟩
    · simp [hstate, hnext, hlive]
    · simp [hstate, hshutdown]
    · intro hset
      simp [hcount.closing_of_settled hset] at hclosing
  · exact hcount

theorem opened (h : Tells events c) : Tells (events ++ [.opened]) (c.step .opened) := by
  have hlive : c.live + 1 + events.count .dropped = events.count .opened + 1 := by
    have hadd := h.live_add
    omega
  cases hclosing : c.closing with
  | true =>
    have hstep : c.step .opened = { c with live := c.live + 1 } := if_pos hclosing
    rw [hstep]
    exact ⟨by simpa using hlive, by simpa using h.closing_iff,
      fun hopen ↦ by simp [hclosing] at hopen, fun _ ↦ hclosing,
      fun _ hzero ↦ absurd hzero (Nat.succ_ne_zero _)⟩
  | false =>
    have hstep : c.step .opened = publish { c with live := c.live + 1 } .ready :=
      if_neg (by simp [hclosing])
    have hstate : (publish { c with live := c.live + 1 } .ready).state = .ready :=
      state_publish (c := { c with live := c.live + 1 }) (h.not_shutdown hclosing) .ready
    rw [hstep]
    refine ⟨by simpa using hlive, by simpa using h.closing_iff, ?_, ?_, ?_⟩
    · simp [hstate]
    · simp [hstate]
    · simp

/-- The state is brought into line with the number of sockets `live`, which a step may have changed
to zero. -/
theorem settled {e : ConnectionEvent} {live : Nat} (h : Tells events c) (he : e ≠ .close)
    (hadd : live + (events ++ [e]).count .dropped = (events ++ [e]).count .opened)
    (hlive : 0 < live → 0 < c.live) :
    Tells (events ++ [e]) (settle { c with live }) := by
  have hclosing : c.closing = true ↔ .close ∈ events ++ [e] := by
    simpa [he.symm] using h.closing_iff
  by_cases hpos : 0 < live
  · have hsettle : settle { c with live } = { c with live } := if_pos hpos
    rw [hsettle]
    refine ⟨hadd, hclosing, fun hopen ↦ ?_, h.closing_of_shutdown, fun _ hzero ↦ ?_⟩
    · exact (h.ready_iff hopen).trans (iff_of_true (hlive hpos) hpos)
    · exact absurd hzero (Nat.ne_of_gt hpos)
  · have hzero : live = 0 := Nat.eq_zero_of_not_pos hpos
    subst hzero
    refine ⟨by simpa using hadd, by simpa using hclosing, ?_, ?_, ?_⟩
    · intro hopen
      have hopen' : c.closing = false := by simpa using hopen
      have hidle : settle { c with live := 0 } = publish { c with live := 0 } .idle := by
        rw [settle, if_neg (Nat.lt_irrefl 0), if_neg (by simp [hopen'])]
      rw [hidle, state_publish (c := { c with live := 0 }) (h.not_shutdown hopen')]
      simp
    · intro hshutdown
      rw [closing_settle]
      by_cases hbefore : c.state = .shutdown
      · exact h.closing_of_shutdown hbefore
      · have hentered := Connectivity.closing_of_shutdown (c := { c with live := 0 }) (e := .settle)
          hbefore hshutdown
        simpa [Connectivity.step] using hentered.1
    · intro hset _
      have hset' : .close ∈ events := by
        rcases (hasSettled_concat events e).1 hset with hbefore | ⟨-, hclose⟩
        · exact h.closing_iff.1 (h.closing_of_settled hbefore)
        · exact hclose
      exact state_settle_of_closing rfl (h.closing_iff.2 hset')

theorem close (h : Tells events c) : Tells (events ++ [.close]) (c.step .close) := by
  have hset : HasSettled (events ++ [.close]) → HasSettled events := by
    simp [hasSettled_concat]
  exact ⟨by simpa [step] using h.live_add, by simp [step], fun hopen ↦ by simp at hopen,
    fun _ ↦ rfl, fun hsettled hzero ↦ h.shutdown_of_settled (hset hsettled) hzero⟩

/-- Every step keeps the agreement, if it drops no socket that is not open. -/
theorem step (h : Tells events c) (e : ConnectionEvent)
    (hdrop : e = .dropped → events.count .dropped < events.count .opened) :
    Tells (events ++ [e]) (c.step e) := by
  have hadd := h.live_add
  cases e with
  | connecting => exact h.of_idle (.inl rfl) .connecting (by simp) (by simp) rfl
  | failed => exact h.of_idle (.inr rfl) .transientFailure (by simp) (by simp) rfl
  | opened => exact h.opened
  | close => exact h.close
  | settle => exact h.settled (by simp) (by simpa using hadd) id
  | dropped =>
    have hlt := hdrop rfl
    rw [step_dropped]
    have hdropped : (events ++ [ConnectionEvent.dropped]).count ConnectionEvent.dropped =
        events.count ConnectionEvent.dropped + 1 := by
      simp
    have hopened : (events ++ [ConnectionEvent.dropped]).count ConnectionEvent.opened =
        events.count ConnectionEvent.opened := by
      simp
    exact h.settled (by simp) (by omega) fun hpos ↦ by omega

end Tells

theorem tells_after (h : DropsOpen events) : Tells events (after events) := by
  induction events using List.reverseRecOn with
  | nil => exact .start
  | append_singleton events e ih =>
    rw [after_concat]
    refine (ih (h.of_beginning (List.prefix_append _ _))).step e ?_
    rintro rfl
    exact h events List.prefix_rfl

theorem state_after_append_of_shutdown (h : (after events).state = .shutdown)
    (later : List ConnectionEvent) : (after (events ++ later)).state = .shutdown := by
  induction later using List.reverseRecOn with
  | nil => rwa [List.append_nil]
  | append_singleton later e ih =>
    rw [← List.append_assoc, after_concat]
    exact state_step_of_shutdown ih e

/-! ## Waiting for the end -/

/-- How many more steps pass until a close that waits finds the connection shut down, if it does. -/
def waits (c : Connectivity) : List ConnectionEvent → Option Nat
  | [] => if c.state = .shutdown then some 0 else none
  | e :: later => if c.state = .shutdown then some 0 else (waits (c.step e) later).map (· + 1)

/-- A close does not wait beyond a moment at which the connection is shut down. -/
theorem exists_waits {steps : List ConnectionEvent}
    (h : (steps.foldl Connectivity.step c).state = .shutdown) (later : List ConnectionEvent) :
    ∃ n, c.waits (steps ++ later) = some n ∧ n ≤ steps.length := by
  induction steps generalizing c with
  | nil =>
    refine ⟨0, ?_, Nat.le_refl 0⟩
    rw [List.nil_append, waits.eq_def]
    cases later <;> exact if_pos h
  | cons e steps ih =>
    rw [List.cons_append, waits]
    split
    · exact ⟨0, rfl, Nat.zero_le _⟩
    · obtain ⟨n, hn, hle⟩ := ih h
      exact ⟨n + 1, by rw [hn, Option.map_some], Nat.succ_le_succ hle⟩

end Connectivity

open Connectivity in
/-- **What a connection says about itself.** After any steps that drop open sockets only, as many
sockets are known as have been opened and not dropped, and no drop has found none. Until the
connection is to be closed it is ready exactly while there is a socket, and it is not shut down. A
step that shuts it down finds it to be closed and without sockets, and whatever comes after leaves
it so. Once a close has settled, the connection is shut down whenever there is no socket, so that
the close has stopped waiting at that moment, whatever comes later. -/
theorem connectivity_of_events (events : List ConnectionEvent) (h : DropsOpen events) :
    (after events).live + events.count .dropped = events.count .opened ∧
      (∀ before, before ++ [.dropped] <+: events → 0 < (after before).live) ∧
      (.close ∉ events →
        ((after events).state = .ready ↔ 0 < (after events).live) ∧
          (after events).state ≠ .shutdown) ∧
      (∀ before e, before ++ [e] <+: events → (after before).state ≠ .shutdown →
        (after (before ++ [e])).state = .shutdown →
          .close ∈ before ∧ (after (before ++ [e])).live = 0) ∧
      ((after events).state = .shutdown →
        ∀ later, (after (events ++ later)).state = .shutdown) ∧
      ∀ before steps, events = before ++ .settle :: steps → .close ∈ before →
        (after events).live = 0 →
          (after events).state = .shutdown ∧
            ∀ later, ∃ n, (after (before ++ [.settle])).waits (steps ++ later) = some n ∧
              n ≤ steps.length := by
  have htells := tells_after h
  refine ⟨htells.live_add, ?_, ?_, ?_, fun hshutdown ↦ state_after_append_of_shutdown hshutdown, ?_⟩
  · intro before hbefore
    have hbefore' := (h.of_beginning hbefore).of_beginning (List.prefix_append _ _)
    have hadd := (tells_after hbefore').live_add
    have hlt := h before hbefore
    omega
  · intro hclose
    have hopen : (after events).closing = false := by
      rw [← Bool.not_eq_true, htells.closing_iff]
      exact hclose
    exact ⟨htells.ready_iff hopen, htells.not_shutdown hopen⟩
  · intro before e hbefore hup hdown
    have hbefore' := tells_after ((h.of_beginning hbefore).of_beginning (List.prefix_append _ _))
    rw [after_concat] at hdown ⊢
    obtain ⟨hclosing, hlive⟩ := closing_of_shutdown hup hdown
    refine ⟨?_, hlive⟩
    -- The step that sets the flag does not touch the state, so the flag was up before.
    rw [closing_step, Bool.or_eq_true, decide_eq_true_iff] at hclosing
    rcases hclosing with hclosing | rfl
    · exact hbefore'.closing_iff.1 hclosing
    · exact absurd hdown hup
  · rintro before steps rfl hclose hlive
    have hshutdown := htells.shutdown_of_settled ⟨before, steps, rfl, hclose⟩ hlive
    refine ⟨hshutdown, fun later ↦ exists_waits ?_ later⟩
    rwa [List.append_cons, after_append] at hshutdown

/-- Two sockets, the second of them opened after the close has settled: it takes both drops to shut
the connection down. -/
theorem connectivity_of_events_late :
    let events : List ConnectionEvent :=
      [.connecting, .opened, .close, .settle, .opened, .dropped, .dropped]
    DropsOpen events ∧ (Connectivity.after events).state = .shutdown ∧
      (Connectivity.after [.connecting, .opened, .close, .settle]).waits
        [.opened, .dropped, .dropped, .opened] = some 3 := by
  intro events
  have hdrops : DropsOpen events := by decide
  obtain ⟨-, -, -, -, -, hsettled⟩ := connectivity_of_events events hdrops
  exact ⟨hdrops, (hsettled [.connecting, .opened, .close] [.opened, .dropped, .dropped] rfl
    (by decide) rfl).1, rfl⟩

end CallCheck.Session

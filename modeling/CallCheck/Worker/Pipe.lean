/-!
# Pipes

A pipe carries messages from one end to the other in order. It keeps everything that was ever
written and counts how much of it has been taken, so that what passed through it can be spoken of
after the fact.
-/

namespace CallCheck.Worker

/-- Messages on their way from one end to the other. -/
structure Pipe (α : Type) where
  /-- Everything that has been written, the latest last. -/
  written : List α := []
  /-- How much of it has been taken. -/
  taken : Nat := 0
  deriving DecidableEq, Repr

namespace Pipe

/-- The pipe with one more message. -/
def put (p : Pipe α) (m : α) : Pipe α := { p with written := p.written ++ [m] }

/-- The message to be taken next. -/
def next? (p : Pipe α) : Option α := p.written[p.taken]?

/-- The pipe after a message has been taken. -/
def take (p : Pipe α) : Pipe α := { p with taken := p.taken + 1 }

/-- Whether everything has been taken. -/
def isEmpty (p : Pipe α) : Bool := decide (p.written.length ≤ p.taken)

/-- What has been taken. -/
def passed (p : Pipe α) : List α := p.written.take p.taken

theorem isEmpty_iff_next? (p : Pipe α) : p.isEmpty = true ↔ p.next? = none := by
  simp [isEmpty, next?]

theorem isSome_next? (p : Pipe α) : p.next?.isSome ↔ p.taken < p.written.length := by
  simp [next?]

@[simp] theorem written_put (p : Pipe α) (m : α) : (p.put m).written = p.written ++ [m] := rfl

theorem passed_prefix (p : Pipe α) : p.passed <+: p.written := List.take_prefix _ _

theorem passed_take {p : Pipe α} {m : α} (h : p.next? = some m) :
    p.take.passed = p.passed ++ [m] := by
  simp only [next?] at h
  simp [passed, take, List.take_add_one, h]

end Pipe

end CallCheck.Worker

import CallCheck.Worker.Receiving
import CallCheck.Worker.Step

/-!
# Calls with one message and one reply

The message is sent with the call, and the reply is waited for. Stopping the call abandons the
reply, and nothing then counts as sent.
-/

namespace CallCheck.Worker

open Call (Error)
open Session (Outcome)

/-- A call with one message and one reply in progress. -/
structure Unary (β σ : Type) where
  /-- The side of the server. -/
  serving : Serving β σ
  /-- The reply. -/
  reply : Reply β := .waiting none none
  /-- Whether the call has been stopped. -/
  stopped : Bool := false
  deriving Repr

namespace Unary

/-- What came of the call, once it has ended. -/
def result? (c : Unary β σ) : Option (Except Error (Outcome β)) :=
  match c.reply with
  | .waiting _ _ => none
  | .abandoned => some (.ok {})
  | .failed status => some (.error (.status status))
  | .received m headers =>
    some (.ok { sent := 1, received := 1, response := some m, headers })

/-- One step of a call with message `m`. -/
def step (process : Process α β σ) (m : α) (e : Step) (c : Unary β σ) : Option (Unary β σ) :=
  match e with
  | .serve => (c.serving.step process [m] true).map fun serving ↦ { c with serving }
  | .receive =>
    if c.reply.isWaiting then
      c.serving.deliver.map fun (a, serving) ↦ { c with serving, reply := c.reply.arrive a }
    else none
  | .quit =>
    if c.stopped && c.reply.isWaiting then some { c with reply := .abandoned } else none
  | .stop => if c.reply.isWaiting then some { c with stopped := true } else none
  | _ => none

/-- The call after a schedule. -/
def run (process : Process α β σ) (m : α) (start : σ) (schedule : List Step) : Unary β σ :=
  runSchedule (step process m) schedule { serving := { state := some start } }

end Unary

end CallCheck.Worker

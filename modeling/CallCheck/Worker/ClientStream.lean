import CallCheck.Worker.Receiving
import CallCheck.Worker.Sending
import CallCheck.Worker.Step

/-!
# Calls with a stream of messages and one reply

The sending loop and the wait for the reply run side by side. The time of the stream ends the
sending loop only: the reply is still waited for. A stop or an error of the provider abandons the
reply.

An error of the provider is what comes of the call, whatever the server answers.
-/

namespace CallCheck.Worker

open Call (Error Limits)
open Session (Outcome)

/-- A call with a stream of messages and one reply in progress. -/
structure ClientStream (π α β σ : Type) where
  /-- The sending side. -/
  sending : Sending π α
  /-- The side of the server. -/
  serving : Serving β σ
  /-- The reply. -/
  reply : Reply β := .waiting none none
  /-- Whether the call has been stopped. -/
  stopped : Bool := false
  deriving Repr

namespace ClientStream

/-- What came of the call, once both sides have ended. -/
def result? (c : ClientStream π α β σ) : Option (Except Error (Outcome β)) :=
  match c.sending.result?, c.reply with
  | none, _ => none
  | _, .waiting _ _ => none
  | some (.error e), _ => some (.error e)
  | some (.ok ()), .abandoned => some (.ok { sent := c.sending.sent })
  | some (.ok ()), .failed status => some (.error (.status status))
  | some (.ok ()), .received m headers =>
    some (.ok { sent := c.sending.sent, received := 1, response := some m, headers })

/-- The call with another reply. Once nothing more is waited for, the sending loop is told to
end. -/
def settle (c : ClientStream π α β σ) (reply : Reply β) : ClientStream π α β σ :=
  if reply.isWaiting then { c with reply }
  else { c with reply, sending := c.sending.tellToEnd }

/-- One step. -/
def step (ask : Source π α) (limits : Limits) (process : Process α β σ) (e : Step)
    (c : ClientStream π α β σ) : Option (ClientStream π α β σ) :=
  match e with
  | .send => (c.sending.go ask limits).map fun sending ↦ { c with sending }
  | .rest => c.sending.rest.map fun sending ↦ { c with sending }
  | .take => c.sending.take.map fun sending ↦ { c with sending }
  | .close =>
    if c.serving.state.isNone || !c.reply.isWaiting then
      some { c with sending := c.sending.close }
    else none
  | .serve =>
    (c.serving.step process c.sending.channel.passed c.sending.isWhole).map fun serving ↦
      { c with serving }
  | .receive =>
    if c.reply.isWaiting then
      c.serving.deliver.map fun (a, serving) ↦ { c with serving }.settle (c.reply.arrive a)
    else none
  | .quit =>
    if (c.stopped || c.sending.failed) && c.reply.isWaiting then some (c.settle .abandoned)
    else none
  | .expire =>
    if limits.duration.isSome then some { c with sending := c.sending.tellToEnd } else none
  | .stop =>
    if c.result?.isNone then some { c with sending := c.sending.tellToEnd, stopped := true }
    else none

/-- The call after a schedule. -/
def run (ask : Source π α) (limits : Limits) (process : Process α β σ) (provider : π) (start : σ)
    (schedule : List Step) : ClientStream π α β σ :=
  runSchedule (step ask limits process) schedule
    { sending := { provider }, serving := { state := some start } }

end ClientStream

end CallCheck.Worker

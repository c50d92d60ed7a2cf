import CallCheck.Worker.Receiving
import CallCheck.Worker.Sending
import CallCheck.Worker.Step

/-!
# Calls with a stream of messages and a stream of replies

The sending loop and the receiving loop run side by side.

## Who ends what

The message limit, the time of the stream and the interceptor end the sending loop only; the
receiving loop goes on until the server ends the call, so that no message is lost. The end of the
receiving loop ends the sending loop. A stop ends both, and so does an error of the provider, which
is then what comes of the call, whatever the receiving loop has come to.
-/

namespace CallCheck.Worker

open Call (Error Limits)
open Session (Outcome)

/-- A call with streams both ways in progress. -/
structure Bidi (π ι α β σ : Type) where
  /-- The sending side. -/
  sending : Sending π α
  /-- The side of the server. -/
  serving : Serving β σ
  /-- The receiving loop. -/
  receiving : Receiving ι β
  /-- Whether the call has been stopped. -/
  stopped : Bool := false
  deriving Repr

namespace Bidi

/-- What came of the call, once both sides have ended. -/
def result? (c : Bidi π ι α β σ) : Option (Except Error (Outcome β)) :=
  match c.sending.result?, c.receiving.result? with
  | some (.error e), some _ => some (.error e)
  | some (.ok ()), some (.error e) => some (.error e)
  | some (.ok ()), some (.ok ()) => some (.ok {
      sent := c.sending.sent
      received := c.receiving.received
      response := c.receiving.last
      headers := c.receiving.headers })
  | _, _ => none

/-- Whether the receiving loop is to give up. -/
def abandons (c : Bidi π ι α β σ) : Bool := c.stopped || c.sending.failed

/-- The call with the receiving loop in another state. Once the loop has ended, the sending loop is
told to end. -/
def settle (c : Bidi π ι α β σ) (receiving : Receiving ι β) : Bidi π ι α β σ :=
  if receiving.result?.isNone then { c with receiving }
  else { c with receiving, sending := c.sending.tellToEnd }

/-- Something arrives. -/
def receive (intercept : Interceptor ι β) (c : Bidi π ι α β σ) (a : Arrival β) :
    Bidi π ι α β σ :=
  let (verdict, receiving) := c.receiving.arrive intercept a
  let c := if verdict = .endStream then { c with sending := c.sending.tellToEnd } else c
  c.settle receiving

/-- One step. -/
def step (ask : Source π α) (intercept : Interceptor ι β) (limits : Limits)
    (process : Process α β σ) (e : Step) (c : Bidi π ι α β σ) : Option (Bidi π ι α β σ) :=
  match e with
  | .send => (c.sending.go ask limits).map fun sending ↦ { c with sending }
  | .rest => c.sending.rest.map fun sending ↦ { c with sending }
  | .take => c.sending.take.map fun sending ↦ { c with sending }
  | .close =>
    if c.serving.state.isNone || c.receiving.result?.isSome then
      some { c with sending := c.sending.close }
    else none
  | .serve =>
    (c.serving.step process c.sending.channel.passed c.sending.isWhole).map fun serving ↦
      { c with serving }
  | .receive =>
    match c.receiving.phase with
    | .finished _ => none
    | phase =>
      if c.abandons && phase matches .reading then none
      else c.serving.deliver.map fun (a, serving) ↦ { c with serving }.receive intercept a
  | .quit =>
    if c.abandons && c.receiving.result?.isNone then some (c.settle c.receiving.finish) else none
  | .expire =>
    if limits.duration.isSome then some { c with sending := c.sending.tellToEnd } else none
  | .stop =>
    if c.result?.isNone then some { c with sending := c.sending.tellToEnd, stopped := true }
    else none

/-- The call after a schedule. -/
def run (ask : Source π α) (intercept : Interceptor ι β) (limits : Limits)
    (process : Process α β σ) (provider : π) (watch : ι) (start : σ) (schedule : List Step) :
    Bidi π ι α β σ :=
  runSchedule (step ask intercept limits process) schedule
    { sending := { provider }, serving := { state := some start }, receiving := { watch } }

end Bidi

end CallCheck.Worker

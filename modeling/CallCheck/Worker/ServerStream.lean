import CallCheck.Call.Limits
import CallCheck.Worker.Receiving
import CallCheck.Worker.Step

/-!
# Calls with one message and a stream of replies

The message is sent with the call, and messages are received until the server ends the call, the
interceptor wants no more, enough have been received, the time of the stream is over, or the call
is stopped. Leaving the loop early abandons the rest of the stream.

Once the headers are there, the end of the time and a stop come before a message that has arrived
but has not been received.
-/

namespace CallCheck.Worker

open Call (Error Limits)
open Session (Outcome)

/-- A call with one message and a stream of replies in progress. -/
structure ServerStream (ι β σ : Type) where
  /-- The side of the server. -/
  serving : Serving β σ
  /-- The receiving loop. -/
  receiving : Receiving ι β
  /-- Whether the loop is to give up. -/
  ended : Bool := false
  /-- Whether the call has been stopped. -/
  stopped : Bool := false
  deriving Repr

namespace ServerStream

/-- What came of the call, once it has ended. -/
def result? (c : ServerStream ι β σ) : Option (Except Error (Outcome β)) :=
  c.receiving.result?.map fun result ↦ result.map fun () ↦ {
    sent := 1
    received := c.receiving.received
    response := c.receiving.last
    headers := c.receiving.headers }

/-- Whether the call goes on. -/
def isRunning (c : ServerStream ι β σ) : Bool := c.receiving.result?.isNone

/-- The receiving loop after something has arrived. -/
def receive (intercept : Interceptor ι β) (limits : Limits) (r : Receiving ι β) (a : Arrival β) :
    Receiving ι β :=
  let (verdict, r) := r.arrive intercept a
  match r.phase with
  | .reading => if verdict = .endStream || limits.reached r.received then r.finish else r
  | _ => r

/-- One step of a call with message `m`. -/
def step (intercept : Interceptor ι β) (limits : Limits) (process : Process α β σ) (m : α)
    (e : Step) (c : ServerStream ι β σ) : Option (ServerStream ι β σ) :=
  match e with
  | .serve => (c.serving.step process [m] true).map fun serving ↦ { c with serving }
  | .receive =>
    match c.receiving.phase with
    | .finished _ => none
    | phase =>
      if c.ended && phase matches .reading then none
      else c.serving.deliver.map fun (a, serving) ↦
        { c with serving, receiving := receive intercept limits c.receiving a }
  | .quit =>
    if c.ended && c.isRunning then some { c with receiving := c.receiving.finish } else none
  | .expire => if limits.duration.isSome && c.isRunning then some { c with ended := true } else none
  | .stop => if c.isRunning then some { c with ended := true, stopped := true } else none
  | _ => none

/-- The call after a schedule. -/
def run (intercept : Interceptor ι β) (limits : Limits) (process : Process α β σ) (m : α)
    (watch : ι) (start : σ) (schedule : List Step) : ServerStream ι β σ :=
  runSchedule (step intercept limits process m) schedule
    { serving := { state := some start }, receiving := { watch } }

end ServerStream

end CallCheck.Worker

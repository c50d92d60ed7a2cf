import CallCheck.Worker.Serving

/-!
# Receiving

Two ways to receive an answer. A single reply is headers, one message and the end of the call. A
stream is headers and any number of messages; an interceptor sees each of them, and also the status
with which the call fails, and may end the stream.
-/

namespace CallCheck.Worker

open Call (Error Status)
open Session (Metadata)

/-! ## A single reply -/

/-- A single reply, as far as it has arrived. -/
inductive Reply (β : Type)
  /-- Not all of it has arrived. -/
  | waiting (headers : Option Metadata) (m : Option β)
  /-- It has arrived. -/
  | received (m : β) (headers : Metadata)
  /-- The call has failed. -/
  | failed (status : Status)
  /-- It is not waited for any more. -/
  | abandoned
  deriving DecidableEq, Repr

/-- What a client makes of a call that ends without a message. -/
def noMessage : Status := ⟨.internal, "Missing response message."⟩

namespace Reply

/-- The reply after something has arrived. The first message counts. -/
def arrive (r : Reply β) (a : Arrival β) : Reply β :=
  match r, a with
  | .waiting _ m, .headers headers => .waiting (some headers) m
  | .waiting none _, .message _ => .failed outOfOrder
  | .waiting (some headers) none, .message m => .waiting (some headers) (some m)
  | .waiting _ _, .ended (some status) => .failed status
  | .waiting (some headers) (some m), .ended none => .received m headers
  | .waiting _ _, .ended none => .failed noMessage
  | r, _ => r

/-- Whether more of it is waited for. -/
def isWaiting : Reply β → Bool
  | .waiting _ _ => true
  | _ => false

end Reply

/-! ## A stream -/

/-- What an interceptor wants. -/
inductive Verdict
  /-- To go on. -/
  | proceed
  /-- To end the stream; the call then counts as complete. -/
  | endStream
  deriving DecidableEq, Repr

/-- What sees each message of a stream, or the status with which the call fails. It has a state of
its own. -/
abbrev Interceptor (ι β : Type) := ι → Except Status β → Except Error Verdict × ι

/-- The interceptor that lets everything pass. -/
def letPass : Interceptor Unit β := fun s _ ↦ (.ok .proceed, s)

/-- Where the receiving loop is. -/
inductive ReceivingPhase
  /-- Waiting for the headers. -/
  | opening
  /-- Waiting for messages. -/
  | reading
  /-- At its end. -/
  | finished (result : Except Error Unit)
  deriving Repr

/-- The receiving side of a stream. -/
structure Receiving (ι β : Type) where
  /-- The state of the interceptor. -/
  watch : ι
  /-- Where the loop is. -/
  phase : ReceivingPhase := .opening
  /-- How many messages have been received. -/
  received : Nat := 0
  /-- The last of them. -/
  last : Option β := none
  /-- The headers. -/
  headers : Metadata := []
  deriving Repr

namespace Receiving

/-- The loop at its end. -/
def finish (r : Receiving ι β) (result : Except Error Unit := .ok ()) : Receiving ι β :=
  { r with phase := .finished result }

/-- A message is received and shown to the interceptor. -/
def accept (intercept : Interceptor ι β) (r : Receiving ι β) (m : β) : Verdict × Receiving ι β :=
  let (verdict, watch) := intercept r.watch (.ok m)
  let r := { r with watch, received := r.received + 1, last := some m }
  match verdict with
  | .ok v => (v, r)
  | .error e => (.proceed, r.finish (.error e))

/-- The call fails, and the interceptor is shown the status. -/
def fail (intercept : Interceptor ι β) (r : Receiving ι β) (status : Status) : Receiving ι β :=
  let (verdict, watch) := intercept r.watch (.error status)
  let r := { r with watch }
  match verdict with
  | .ok .endStream => r.finish
  | .ok .proceed => r.finish (.error (.status status))
  | .error e => r.finish (.error e)

/-- Something arrives before the headers have. The interceptor is not shown anything then. -/
def begin (r : Receiving ι β) : Arrival β → Receiving ι β
  | .headers headers => { r with headers, phase := .reading }
  | .message _ => r.finish (.error (.status outOfOrder))
  | .ended (some status) => r.finish (.error (.status status))
  | .ended none => r.finish

/-- Something arrives. The verdict is that of the interceptor on a message. -/
def arrive (intercept : Interceptor ι β) (r : Receiving ι β) (a : Arrival β) :
    Verdict × Receiving ι β :=
  match r.phase with
  | .finished _ => (.proceed, r)
  | .opening => (.proceed, r.begin a)
  | .reading =>
    match a with
    | .headers _ => (.proceed, r)
    | .message m => r.accept intercept m
    | .ended none => (.proceed, r.finish)
    | .ended (some status) => (.proceed, r.fail intercept status)

/-- What came of the loop, once it has ended. -/
def result? (r : Receiving ι β) : Option (Except Error Unit) :=
  match r.phase with
  | .finished result => some result
  | _ => none

end Receiving

end CallCheck.Worker

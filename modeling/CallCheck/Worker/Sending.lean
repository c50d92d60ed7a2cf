import CallCheck.Call.Limits
import CallCheck.Call.Provider
import CallCheck.Worker.Pipe

/-!
# The sending loop

The loop asks the provider for one message after the other and hands each to the transport, over
a channel that holds one message. It ends when the provider says so, when enough messages have been
sent, when the transport takes no more, or when it is told to end.

## Being told to end

Several things tell the loop to end: the time of the stream is over, the interceptor wants no more,
the receiving side has finished, the call is stopped. The loop treats them all alike, and so they
share one flag. The loop looks at the flag before it asks the provider, while it waits for room in
the channel, and while it pauses; a message that waits for room when the flag goes up is not sent.
-/

namespace CallCheck.Worker

open Call (Error Limits Supply)

/-- What a provider answers when it is asked, and its state after that. -/
abbrev Source (π α : Type) := π → Except Error (Supply α) × π

/-- The source that gives the messages of a list in order. -/
def fromList : Source (List α) α := fun messages ↦
  let (supply, rest) := Supply.ofList messages
  (.ok supply, rest)

/-- Where the sending loop is. -/
inductive SendingPhase (α : Type)
  /-- About to ask the provider. -/
  | ready
  /-- Waiting for room for a message. -/
  | offering (m : α) (last : Bool)
  /-- Pausing before the next message. -/
  | pausing
  /-- At its end. -/
  | finished (result : Except Error Unit)
  deriving Repr

/-- The sending side. -/
structure Sending (π α : Type) where
  /-- The state of the provider. -/
  provider : π
  /-- Where the loop is. -/
  phase : SendingPhase α := .ready
  /-- How many messages have been handed to the transport. -/
  sent : Nat := 0
  /-- The channel to the transport. -/
  channel : Pipe α := {}
  /-- Whether the transport takes no more messages. -/
  closed : Bool := false
  /-- Whether the loop has been told to end. -/
  ended : Bool := false
  deriving Repr

namespace Sending

/-- The loop at its end. -/
def finish (s : Sending π α) (result : Except Error Unit := .ok ()) : Sending π α :=
  { s with phase := .finished result }

/-- The loop after the provider has answered. -/
def answered (s : Sending π α) : Except Error (Supply α) → Sending π α
  | .ok (.message m) => { s with phase := .offering m false }
  | .ok (.last m) => { s with phase := .offering m true }
  | .ok .finished => s.finish
  | .error e => s.finish (.error e)

/-- The loop after a message has been handed to the transport. -/
def handed (limits : Limits) (s : Sending π α) (m : α) (last : Bool) : Sending π α :=
  let s := { s with sent := s.sent + 1, channel := s.channel.put m }
  if last || limits.reached s.sent then s.finish
  else { s with phase := if limits.interval.isSome then .pausing else .ready }

/-- The loop goes on, unless it has to wait. -/
def go (ask : Source π α) (limits : Limits) (s : Sending π α) : Option (Sending π α) :=
  match s.phase with
  | .ready =>
    if s.ended then some s.finish
    else
      let (answer, provider) := ask s.provider
      some (answered { s with provider } answer)
  | .offering m last =>
    if s.ended || s.closed then some s.finish
    else if s.channel.isEmpty then some (s.handed limits m last)
    else none
  | .pausing => if s.ended then some s.finish else none
  | .finished _ => none

/-- The pause is over. -/
def rest (s : Sending π α) : Option (Sending π α) :=
  match s.phase with
  | .pausing => some { s with phase := .ready }
  | _ => none

/-- The transport takes a message. -/
def take (s : Sending π α) : Option (Sending π α) :=
  if s.closed then none
  else s.channel.next?.map fun _ ↦ { s with channel := s.channel.take }

/-- The transport takes no more messages. -/
def close (s : Sending π α) : Sending π α := { s with closed := true }

/-- The loop is told to end. -/
def tellToEnd (s : Sending π α) : Sending π α := { s with ended := true }

/-- What came of the loop, once it has ended. -/
def result? (s : Sending π α) : Option (Except Error Unit) :=
  match s.phase with
  | .finished result => some result
  | _ => none

/-- Whether the provider failed. -/
def failed (s : Sending π α) : Bool := s.result? matches some (.error _)

/-- Whether everything that will ever be sent has been taken. -/
def isWhole (s : Sending π α) : Bool := s.result?.isSome && s.channel.isEmpty

end Sending

/-! ## Calls with one message -/

/-- The one message of a call that sends no more. -/
def firstMessage (ask : Source π α) (provider : π) : Except Error α :=
  match (ask provider).1 with
  | .ok (.message m) => .ok m
  | .ok (.last m) => .ok m
  | .ok .finished => .error .noData
  | .error e => .error e

end CallCheck.Worker

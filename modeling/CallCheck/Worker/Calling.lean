import CallCheck.Schema.Pool
import CallCheck.Worker.Bidi
import CallCheck.Worker.ClientStream
import CallCheck.Worker.ServerStream
import CallCheck.Worker.Unary

/-!
# Calls of every kind

A call has a provider, an interceptor and limits on one side and a server on the other; the kind of
its method decides which of them matter. A call whose schedule ends before it does has run out of
time, or else has lost its connection.
-/

namespace CallCheck.Worker

open Call (Data Error Limits Provider Supply)
open Schema (CallKind)
open Session (Outcome)

/-- Both sides of a call. -/
structure Calling (π ι α β σ : Type) where
  /-- What the provider answers. -/
  ask : Source π α
  /-- The state in which the provider starts. -/
  provider : π
  /-- What the interceptor answers. -/
  intercept : Interceptor ι β
  /-- The state in which the interceptor starts. -/
  watch : ι
  /-- What bounds the streams. -/
  limits : Limits
  /-- What the server does. -/
  process : Process α β σ
  /-- The state in which the server starts. -/
  start : σ

namespace Calling

/-- A call with one message, given what is done with the message. -/
def withFirst (c : Calling π ι α β σ)
    (call : α → Bool × Option (Except Error (Outcome β))) :
    Bool × Option (Except Error (Outcome β)) :=
  match firstMessage c.ask c.provider with
  | .error e => (false, some (.error e))
  | .ok m => call m

/-- What comes of a call of a kind by a schedule, if it ends, and whether it was stopped. -/
def run (c : Calling π ι α β σ) (kind : CallKind) (schedule : List Step) :
    Bool × Option (Except Error (Outcome β)) :=
  match kind with
  | .unary => c.withFirst fun m ↦
      let call := Unary.run c.process m c.start schedule
      (call.stopped, call.result?)
  | .serverStreaming => c.withFirst fun m ↦
      let call := ServerStream.run c.intercept c.limits c.process m c.watch c.start schedule
      (call.stopped, call.result?)
  | .clientStreaming =>
    let call := ClientStream.run c.ask c.limits c.process c.provider c.start schedule
    (call.stopped, call.result?)
  | .bidi =>
    let call :=
      Bidi.run c.ask c.intercept c.limits c.process c.provider c.watch c.start schedule
    (call.stopped, call.result?)

end Calling

/-- What comes of a call that may have run out of time. -/
def conclude (timeout : Option Nat) : Option (Except Error α) → Except Error α
  | some result => result
  | none =>
    match timeout with
    | some millis => .error (.deadlineExceeded millis)
    | none => .error (.status ⟨.unavailable, "the connection was lost"⟩)

/-- A provider that is asked with new data each time. -/
def askWith (provider : Provider π) (data : Nat → Data) :
    Source (π × Nat) Message.Value := fun (state, count) ↦
  let (answer, state) := provider state (data count)
  (answer, (state, count + 1))

end CallCheck.Worker

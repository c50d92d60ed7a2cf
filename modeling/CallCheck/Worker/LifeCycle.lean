import CallCheck.Session.Network
import CallCheck.Text.Quoted

/-!
# The life of a worker

A worker makes calls of one method, one after the other. Whoever holds its stop handle can end the
call that is running; before and after a call the handle does nothing.

## Tokens

Every call that starts gets a token of its own, and stopping marks the token of the call that is
running. A mark on an earlier token cannot reach a later call, because starting a call replaces the
token. Only a stop marks it: the message limit, the duration, the interceptor and the provider end a
call without it, and so leave the call complete.
-/

namespace CallCheck

namespace Worker

open Call (Error)
open Session (Metadata Outcome)

/-- What a worker is doing, or how its last call ended. -/
inductive State
  | idle
  | running
  | completed
  | cancelled
  | failed
  deriving DecidableEq, Repr

/-- The name of a state. -/
def State.name : State → String
  | .idle => "Idle"
  | .running => "Running"
  | .completed => "Completed"
  | .cancelled => "Cancelled"
  | .failed => "Failed"

/-- What is reported of a call that did not fail. -/
structure Report (β : Type) where
  /-- How it ended. -/
  state : State
  /-- What it has to show. -/
  outcome : Outcome β
  deriving Repr

end Worker

/-- A worker. -/
structure Worker where
  /-- Its name. -/
  id : String
  /-- The method that it calls. -/
  method : Schema.Method
  /-- What it is doing. -/
  state : Worker.State := .idle
  /-- How many calls it has started. -/
  requestNumber : Int := 0
  /-- Whether its stop handle can stop a call. -/
  active : Bool := false
  /-- Whether the token of the call that was started last is marked. -/
  stopped : Bool := false
  deriving Repr

namespace Worker

open Call (Error)
open Session (Outcome)

/-- Starts a call without data, which fails at once. -/
def refuse (w : Worker) : Worker :=
  { w with requestNumber := w.requestNumber + 1, state := .failed }

/-- Starts a call. -/
def start (w : Worker) : Worker :=
  { w with
    requestNumber := w.requestNumber + 1
    state := .running
    active := true
    stopped := false }

/-- Stops the call that is running, and tells whether there is one. -/
def stop (w : Worker) : Bool × Worker :=
  if w.active then (true, { w with stopped := true }) else (false, w)

/-- Ends the call that is running. -/
def finish (w : Worker) (result : Except Error (Outcome β)) : Except Error (Report β) × Worker :=
  match result with
  | .ok outcome =>
    let state := if w.stopped then .cancelled else .completed
    (.ok ⟨state, outcome⟩, { w with active := false, state })
  | .error e => (.error e, { w with active := false, state := .failed })

/-- What can happen to a worker. -/
inductive Event (β : Type)
  /-- A call is started without data. -/
  | refused
  /-- A call is started. -/
  | started
  /-- The stop handle is used. -/
  | stop
  /-- The call that is running ends. -/
  | finished (result : Except Error (Outcome β))

/-- One step. -/
def step (w : Worker) : Event β → Worker
  | .refused => w.refuse
  | .started => w.start
  | .stop => w.stop.2
  | .finished result => (w.finish result).2

/-- A worker in one line. -/
def describe (w : Worker) : String :=
  let fields := [("id", Text.quoted w.id), ("method", Text.quoted w.method.fullName),
    ("state", w.state.name), ("request_number", toString w.requestNumber)]
  "Worker \x7b " ++ ", ".intercalate ((fields.map fun (k, v) ↦ s!"{k}: {v}") ++ [".."]) ++ " \x7d"

end Worker

end CallCheck

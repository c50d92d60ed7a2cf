import CallCheck.Call.Data
import CallCheck.Call.Limits
import CallCheck.Message.Value
import CallCheck.Reflection.Query
import CallCheck.Session.Transport

/-!
# Networks

What is at the other end of a connection. To the program the network is a function: what comes
of dialling an address, and what comes of the calls that are then made. A call is described by
what it asks for, and its ending by what came back and whether it was stopped meanwhile. How a
call runs, message by message, is the subject of `CallCheck.Worker`.
-/

namespace CallCheck.Session

open Call (Data Error Limits)
open Schema (Method Pool)

/-- Keys and values that go along with a call or with its answer. -/
abbrev Metadata := List (String × String)

/-- What a call that did not fail has to show. -/
structure Outcome (β : Type) where
  /-- How many messages were sent. -/
  sent : Nat := 0
  /-- How many messages were received. -/
  received : Nat := 0
  /-- The last message received. -/
  response : Option β := none
  /-- What went along with the answer. -/
  headers : Metadata := []
  deriving Repr

/-- How a call ended. -/
structure Ending where
  /-- Whether it was stopped while it ran. -/
  stopped : Bool
  /-- What came of it. -/
  result : Except Error (Outcome Message.Value)
  /-- How long it took, in milliseconds. -/
  elapsed : Nat := 0
  deriving Repr

/-- A call to make. -/
structure CallRequest where
  /-- The schema of the method. -/
  pool : Pool
  /-- What its templates can ask for when the provider is asked for the first time, the second
  time, and so on. -/
  data : Nat → Data
  /-- A template for each message to send. -/
  templates : List String
  /-- What goes along. -/
  metadata : Metadata
  /-- What bounds its streams. -/
  limits : Limits
  /-- How long it may take, in milliseconds. -/
  timeout : Option Nat

/-- What there is at the other end of a connection. -/
structure Peer where
  /-- What it says about its schema. -/
  reflection : Reflection.Server
  /-- What comes of a call. -/
  answer : CallRequest → Ending

/-- What comes of dialling. -/
inductive Dial
  /-- There is a connection. -/
  | connected (peer : Peer)
  /-- There is none, and why. -/
  | failed (reason : String)
  /-- There is none in time. -/
  | timedOut

/-- What comes of dialling each host, with what transport options. -/
abbrev Network := String → Transport → Dial

/-- The network of a machine that has none. -/
def Network.down : Network := fun _ _ ↦ .failed "Network is unreachable (os error 101)"

end CallCheck.Session

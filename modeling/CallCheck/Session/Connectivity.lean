/-!
# Connectivity

What a connection says about itself while its sockets come and go. A channel may open sockets
again and again, and several threads do so at once; each of the steps below happens at one
moment, and the steps of different threads may come in any order.
-/

namespace CallCheck.Session

/-- What a connection says about itself. -/
inductive ConnectionState
  /-- There is no socket. -/
  | idle
  /-- A socket is being opened. -/
  | connecting
  /-- There is a socket. -/
  | ready
  /-- A socket could not be opened. -/
  | transientFailure
  /-- The connection is closed for good. -/
  | shutdown
  deriving DecidableEq, Repr

/-- The name of a state. -/
def ConnectionState.name : ConnectionState → String
  | .idle => "IDLE"
  | .connecting => "CONNECTING"
  | .ready => "READY"
  | .transientFailure => "TRANSIENT_FAILURE"
  | .shutdown => "SHUTDOWN"

/-- What is known of the sockets of a connection. -/
structure Connectivity where
  /-- What the connection says. -/
  state : ConnectionState := .idle
  /-- How many sockets there are. -/
  live : Nat := 0
  /-- Whether the connection is being closed. -/
  closing : Bool := false
  deriving DecidableEq, Repr

/-- What can happen to a connection. -/
inductive ConnectionEvent
  /-- A socket is going to be opened. -/
  | connecting
  /-- A socket has been opened. -/
  | opened
  /-- A socket could not be opened. -/
  | failed
  /-- A socket is gone. -/
  | dropped
  /-- The connection is to be closed. -/
  | close
  /-- The state is brought into line with the number of sockets. -/
  | settle
  deriving DecidableEq, Repr

namespace Connectivity

/-- Says something new. A connection that is shut down stays so. -/
def publish (c : Connectivity) (next : ConnectionState) : Connectivity :=
  if c.state = .shutdown then c else { c with state := next }

/-- Says something new if there is no socket and none is wanted any more. -/
def publishIdle (c : Connectivity) (next : ConnectionState) : Connectivity :=
  if c.live = 0 ∧ c.closing = false then c.publish next else c

/-- Without sockets a connection is shut down if it is being closed, and idle otherwise. -/
def settle (c : Connectivity) : Connectivity :=
  if 0 < c.live then c else c.publish (if c.closing then .shutdown else .idle)

/-- One step. -/
def step (c : Connectivity) : ConnectionEvent → Connectivity
  | .connecting => c.publishIdle .connecting
  | .opened =>
    let c := { c with live := c.live + 1 }
    if c.closing then c else c.publish .ready
  | .failed => c.publishIdle .transientFailure
  | .dropped =>
    let c := { c with live := c.live - 1 }
    if c.live = 0 then c.settle else c
  | .close => { c with closing := true }
  | .settle => c.settle

/-- What is known after a number of steps. -/
def after (events : List ConnectionEvent) : Connectivity := events.foldl step {}

end Connectivity

end CallCheck.Session

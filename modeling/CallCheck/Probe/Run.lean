import CallCheck.Message.Json
import CallCheck.Probe.Harness
import CallCheck.Probe.Metadata
import CallCheck.Probe.Settings
import CallCheck.Session.Basic
import CallCheck.Text.Basic
import CallCheck.Worker.LifeCycle

/-!
# Runs

A run calls the entries of a collection in order. The environment passes from one entry to the
next; a failing entry does not stop the run, an entry that was interrupted does.

## What happens outside

The network, the clock and the interrupt are not the program's doing. They are given as a function
that says, for the place of an entry in the collection, what that entry meets.
-/

namespace CallCheck.Probe

open Session (Config Metadata Network)
open Worker (State)

/-- What an entry meets outside of the program. -/
structure Surroundings where
  /-- Whether the interrupt has come before there is a connection. -/
  interrupted : Bool := false
  /-- The network. -/
  network : Network
  /-- The instants at which messages are asked for. -/
  clock : Nat → Call.Sample

/-- What is reported of an entry that did not fail. -/
structure EntryReport where
  /-- How its call ended. -/
  state : State
  /-- How many messages were sent. -/
  sent : Nat := 0
  /-- How many messages were received. -/
  received : Nat := 0
  /-- The last message received. -/
  response : Option Json := none
  /-- How long the call took, in milliseconds. -/
  elapsed : Nat := 0
  deriving Repr

/-- An entry with what came of it. -/
structure EntryOutcome where
  /-- The name of the entry. -/
  name : String
  /-- What came of it. -/
  result : Except Failure EntryReport
  deriving Repr

namespace EntryOutcome

/-- Whether an entry was interrupted. -/
def isCancelled (o : EntryOutcome) : Bool := o.result matches .ok { state := .cancelled, .. }

/-- Whether an entry ran to its end and met its expectations. -/
def passed (o : EntryOutcome) : Bool :=
  match o.result with
  | .ok report => report.state != .cancelled
  | .error _ => false

end EntryOutcome

/-! ## One entry -/

/-- What expressions see as the request: the one payload, or an array of all. -/
def requestBody : List String → String
  | [payload] => payload
  | payloads => "[" ++ ",".intercalate payloads ++ "]"

namespace Settings

/-- How the method of an entry is found and called, on a host. -/
def config (s : Settings) (host : String) (e : Entry) : Config where
  host
  target := e.call
  schema := s.schemaFor e
  transport := s.transport
  limits := s.limits
  timeout := s.timeout

/-- The host of an entry. -/
def hostOf (s : Settings) (h : Harness) (e : Entry) : String := h.substitute (e.url.getD s.host)

/-- What an entry sends along: what the run does, and what it does itself. -/
def metadataOf (s : Settings) (h : Harness) (e : Entry) : Metadata :=
  let given := s.metadata ++ e.metadata.map fun (k, v) ↦ (Text.asciiLower k, v)
  given.map fun (k, v) ↦ (k, h.substitute v)

end Settings

/-- Makes the call of an entry. -/
def callEntry (o : Surroundings) (session : Session) (e : Entry) (payloads : List String)
    (metadata : Metadata) : Except Call.Error (Worker.Report Message.Value × Nat) :=
  let worker := ({ id := e.name, method := session.method } : Worker).start
  let ending := session.connection.peer.answer {
    pool := session.pool
    data := fun n ↦ ⟨worker.id, worker.requestNumber, worker.method, o.clock n⟩
    templates := payloads
    metadata
    limits := session.config.limits
    timeout := session.config.timeout }
  let worker := if ending.stopped then worker.stop.2 else worker
  (worker.finish ending.result).1.map (·, ending.elapsed)

/-- Calls an entry over a session, and evaluates its expectations and events. -/
def finishEntry (s : Settings) (o : Surroundings) (h : Harness) (session : Session) (e : Entry) :
    Except Failure EntryReport × Harness :=
  let payloads := e.payloads.map h.substitute
  let metadata := s.metadataOf h e
  match checkHeaders metadata with
  | .error f => (.error f, h)
  | .ok () =>
    match callEntry o session e payloads metadata with
    | .error e => (.error ⟨[], .call e⟩, h)
    | .ok (report, elapsed) =>
      let type := session.pool.messageType session.method.output.full
      let response := report.outcome.response.map (Message.toJson session.pool type)
      let h := h.record (requestBody payloads) metadata response report.outcome.headers
      match h.check e.expect with
      | (.error f, h) => (.error f, h)
      | (.ok (), h) =>
        match h.apply e.event with
        | (.error f, h) => (.error f, h)
        | (.ok (), h) =>
          (.ok {
            state := report.state
            sent := report.outcome.sent
            received := report.outcome.received
            response
            elapsed }, h)

/-- Finds the method of an entry, calls it, and evaluates the expectations and events. -/
def runEntry (s : Settings) (files : Files) (o : Surroundings) (h : Harness) (e : Entry) :
    Except Failure EntryReport × Harness :=
  if o.interrupted then (.ok { state := .cancelled }, h)
  else
    let host := s.hostOf h e
    match Session.connect o.network files (s.config host e) with
    | .error fault => (.error ⟨[s!"resolving {e.call} on {host}"], .call fault⟩, h)
    | .ok session => finishEntry s o h session e

/-! ## All entries -/

/-- Runs entries in order, up to the first that is interrupted; `place` is the place of the first
of them. -/
def runFrom (s : Settings) (files : Files) (outside : Nat → Surroundings) (place : Nat)
    (h : Harness) : List Entry → List EntryOutcome × Harness
  | [] => ([], h)
  | e :: rest =>
    let (result, h) := runEntry s files (outside place) h e
    let outcome : EntryOutcome := ⟨e.name, result⟩
    if outcome.isCancelled then ([outcome], h)
    else
      let (outcomes, h) := runFrom s files outside (place + 1) h rest
      (outcome :: outcomes, h)

/-- Runs the entries of a collection in order. -/
def runAll (s : Settings) (files : Files) (outside : Nat → Surroundings) (entries : List Entry) :
    List EntryOutcome × Harness :=
  runFrom s files outside 0 {} entries

end CallCheck.Probe

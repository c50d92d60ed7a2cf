import CallCheck.Call.Error
import CallCheck.Session.Network
import CallCheck.Worker.Pipe

/-!
# Serving a call

A server answers a call as a process: it reads the messages that have reached it, sends headers
and messages, and ends the call with a status or without one. The process is arbitrary. What it
sends arrives at the client in the same order.
-/

namespace CallCheck.Worker

open Call (Status)
open Session (Metadata)

/-- What a server does next. -/
inductive Move (α β σ : Type)
  /-- It reads a message, or learns that there are no more. -/
  | read (next : Option α → σ)
  /-- It sends headers. -/
  | greet (headers : Metadata) (next : σ)
  /-- It sends a message. -/
  | write (message : β) (next : σ)
  /-- It ends the call, with a status if it failed. -/
  | finish (fault : Option Status)

/-- A server, as far as one call is concerned: what it does next in each of its states. -/
abbrev Process (α β σ : Type) := σ → Move α β σ

/-- What arrives at a client. -/
inductive Arrival (β : Type)
  /-- Headers. -/
  | headers (metadata : Metadata)
  /-- A message. -/
  | message (m : β)
  /-- The end of the call, with a status if it failed. -/
  | ended (fault : Option Status)
  deriving DecidableEq, Repr

/-- What a client makes of a server that sends a message before the headers. -/
def outOfOrder : Status := ⟨.internal, "a message arrived before the headers"⟩

/-- The side of the server. -/
structure Serving (β σ : Type) where
  /-- The state of the server, until it has ended the call. -/
  state : Option σ
  /-- How many messages it has read. -/
  heard : Nat := 0
  /-- What it has sent. -/
  answer : Pipe (Arrival β) := {}
  deriving Repr

namespace Serving

/-- The server goes on. `request` is what has reached it, and `whole` says that nothing more
will. -/
def step (process : Process α β σ) (request : List α) (whole : Bool) (s : Serving β σ) :
    Option (Serving β σ) := do
  match process (← s.state) with
  | .read next =>
    match request[s.heard]? with
    | some m => some { s with state := some (next (some m)), heard := s.heard + 1 }
    | none => if whole then some { s with state := some (next none) } else none
  | .greet headers next =>
    some { s with state := some next, answer := s.answer.put (.headers headers) }
  | .write m next => some { s with state := some next, answer := s.answer.put (.message m) }
  | .finish fault => some { s with state := none, answer := s.answer.put (.ended fault) }

/-- What arrives next at the client, and the side of the server after that. -/
def deliver (s : Serving β σ) : Option (Arrival β × Serving β σ) :=
  s.answer.next?.map fun a ↦ (a, { s with answer := s.answer.take })

/-- The messages that the server has sent. -/
def messages (s : Serving β σ) : List β :=
  s.answer.written.filterMap fun
    | .message m => some m
    | _ => none

end Serving

/-! ## Messages in another form -/

/-- The server for a client that speaks of messages in another form. What cannot be put into the
other form ends the call. -/
def Process.recode (process : Process α β σ) (decode : α' → Except Status α)
    (encode : β → Except Status β') : Process α' β' (Except Status σ)
  | .error fault => .finish (some fault)
  | .ok s =>
    match process s with
    | .read next => .read fun m ↦
        match m.map decode with
        | none => .ok (next none)
        | some (.ok a) => .ok (next (some a))
        | some (.error fault) => .error fault
    | .greet headers next => .greet headers (.ok next)
    | .write m next =>
      match encode m with
      | .ok m => .write m (.ok next)
      | .error fault => .finish (some fault)
    | .finish fault => .finish fault

end CallCheck.Worker

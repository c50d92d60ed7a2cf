import CallCheck.Greeter.Service

/-!
# What the Greeter has seen

The Greeter counts its calls, and for each method the messages that it has read or sent. The
counts of a call follow from what the service has read and what it has sent.
-/

namespace CallCheck.Greeter

open Worker (Serving)

/-- The counts. -/
structure Stats where
  /-- Calls. -/
  calls : Nat := 0
  /-- Requests of single greetings. -/
  unaryReceived : Nat := 0
  /-- Greetings sent in streams of numbered greetings. -/
  serverStreamSent : Nat := 0
  /-- Names collected. -/
  clientStreamReceived : Nat := 0
  /-- Requests in conversations. -/
  bidiReceived : Nat := 0
  /-- Greetings in conversations. -/
  bidiSent : Nat := 0
  deriving DecidableEq, Repr

namespace Stats

/-- The counts by name. -/
def members (s : Stats) : List (String × Nat) :=
  [("calls", s.calls), ("unary_received", s.unaryReceived),
    ("server_stream_sent", s.serverStreamSent),
    ("client_stream_received", s.clientStreamReceived), ("bidi_received", s.bidiReceived),
    ("bidi_sent", s.bidiSent)]

/-- The counts after a call that started in a state. -/
def add (s : Stats) (start : State) (call : Serving Reply State) : Stats :=
  let s := { s with calls := s.calls + 1 }
  match start with
  | .hello => { s with unaryReceived := s.unaryReceived + call.heard }
  | .hellos => { s with serverStreamSent := s.serverStreamSent + call.messages.length }
  | .collecting _ => { s with clientStreamReceived := s.clientStreamReceived + call.heard }
  | .opening (.conversing _) =>
    { s with
      bidiReceived := s.bidiReceived + call.heard
      bidiSent := s.bidiSent + call.messages.length }
  | _ => s

end Stats

end CallCheck.Greeter

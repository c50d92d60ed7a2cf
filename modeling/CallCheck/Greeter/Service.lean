import CallCheck.Worker.Serving

/-!
# The Greeter

What the service says to whom, as a process for each of its methods. Every answer starts with
headers that name the server and echo a key of the request. A name can be given that makes the
streaming methods fail.
-/

namespace CallCheck.Greeter

open Call (Status)
open Session (Metadata)
open Worker (Move Process)

/-- A request: a name and a count. -/
structure Request where
  /-- Who is greeted. -/
  name : String
  /-- How many greetings are asked for. -/
  count : Nat := 0
  deriving DecidableEq, Repr

/-- A greeting and its number. -/
structure Reply where
  /-- The greeting. -/
  message : String
  /-- Its number. -/
  count : Nat
  deriving DecidableEq, Repr

/-- The name at which the streaming methods fail. -/
def failName : String := "error"

/-- What the streaming methods fail with. -/
def forced (code : Call.StatusCode) : Status := ⟨code, "forced failure"⟩

/-- The headers of an answer. -/
def headers (request : Metadata) : Metadata :=
  ("x-served-by", "rpcprobe-testserver") :: ((request.lookup "x-echo").map ("x-echo", ·)).toList

/-- Where the service is in a call. -/
inductive State
  /-- About to greet once. -/
  | hello
  /-- About to greet as often as it is asked to. -/
  | hellos
  /-- About to send a numbered greeting, up to a limit; a limit of zero is none. -/
  | counting (name : String) (limit next : Nat)
  /-- Collecting names. -/
  | collecting (names : List String)
  /-- Greeting everyone who comes; some have come. -/
  | conversing (seen : Nat)
  /-- About to send headers. -/
  | opening (next : State)
  /-- About to send a greeting. -/
  | saying (reply : Reply) (next : State)
  /-- About to end the call. -/
  | ending (fault : Option Status)
  deriving DecidableEq, Repr

/-- What is said to a client that sends nothing where one message is needed. -/
def noRequest : Status := ⟨.internal, "Missing request message."⟩

/-- A greeting. -/
def greet (name : String) : String := s!"Hello {name}"

/-- A numbered greeting. -/
def numbered (name : String) (n : Nat) : Reply := ⟨s!"{greet name} #{n}", n⟩

/-- What the service does next, given what came along with the request. -/
def process (request : Metadata) : Process Request Reply State
  | .hello => .read fun
    | some r => .opening (.saying ⟨greet r.name, 1⟩ (.ending none))
    | none => .ending (some noRequest)
  | .hellos => .read fun
    | some r => .opening (.counting r.name r.count 1)
    | none => .ending (some noRequest)
  | .counting name limit next =>
    if 0 < limit ∧ limit < next then .finish none
    else
      .write (numbered name next)
        (if name = failName then .ending (some (forced .internal))
          else .counting name limit (next + 1))
  | .collecting names => .read fun
    | some r =>
      if r.name = failName then .ending (some (forced .invalidArgument))
      else .collecting (names ++ [r.name])
    | none =>
      .opening (.saying ⟨greet (", ".intercalate names), min names.length (Numeric.maxUnsigned 32)⟩
        (.ending none))
  | .conversing seen => .read fun
    | some r =>
      if r.name = failName then .ending (some (forced .internal))
      else .saying ⟨greet r.name, seen + 1⟩ (.conversing (seen + 1))
    | none => .ending none
  | .opening next => .greet (headers request) next
  | .saying reply next => .write reply next
  | .ending fault => .finish fault

/-- Where the service starts when a method is called. -/
def start (method : String) : State :=
  match method with
  | "/helloworld.Greeter/SayHello" => .hello
  | "/helloworld.Greeter/SayHellos" => .hellos
  | "/helloworld.Greeter/SayHelloCS" => .collecting []
  | "/helloworld.Greeter/SayHelloBidi" => .opening (.conversing 0)
  | _ => .ending (some ⟨.unimplemented, ""⟩)

end CallCheck.Greeter

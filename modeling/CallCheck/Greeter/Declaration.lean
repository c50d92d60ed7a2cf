import CallCheck.Schema.Pool

/-!
# The schema of the Greeter

A service that greets by name, in each of the four shapes of a call.
-/

namespace CallCheck.Greeter

open Schema

/-- A message type with a text and a count. -/
def textAndCount (name text : String) : MessageDecl :=
  .mk name
    [{ name := text, number := 1, type := some (.scalar .string), jsonName := some text },
      { name := "count", number := 2, type := some (.scalar .uint32), jsonName := some "count" }]
    [] [] [] [] [] [] false

/-- The file that declares the service. -/
def file : FileDecl where
  name := "greeter.proto"
  package := "helloworld"
  version := some "proto3"
  messages := [textAndCount "HelloRequest" "name", textAndCount "HelloReply" "message"]
  services :=
    let method (name : String) (clientStreaming serverStreaming : Bool) : MethodDecl :=
      { name, input := ".helloworld.HelloRequest", output := ".helloworld.HelloReply",
        clientStreaming, serverStreaming }
    [⟨"Greeter", [method "SayHello" false false, method "SayHellos" false true,
      method "SayHelloCS" true false, method "SayHelloBidi" true true]⟩]

/-- The file as a source. -/
def source : String :=
  "\n".intercalate [
    "syntax = \"proto3\";",
    "package helloworld;",
    "message HelloRequest \x7b string name = 1; uint32 count = 2; \x7d",
    "message HelloReply \x7b string message = 1; uint32 count = 2; \x7d",
    "service Greeter \x7b",
    "  rpc SayHello (HelloRequest) returns (HelloReply);",
    "  rpc SayHellos (HelloRequest) returns (stream HelloReply);",
    "  rpc SayHelloCS (stream HelloRequest) returns (HelloReply);",
    "  rpc SayHelloBidi (stream HelloRequest) returns (stream HelloReply);",
    "\x7d", ""]

end CallCheck.Greeter

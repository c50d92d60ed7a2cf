import CallCheck.Call.Resolve
import CallCheck.Greeter.Declaration
import CallCheck.Greeter.Service
import CallCheck.Message.Wire
import CallCheck.Worker.Calling

/-!
# The Greeter at the other end

The Greeter with its messages in binary form, and calls of it by a schedule. A client may have a
schema of its own; then its messages are read by the Greeter's schema, and the Greeter's by the
client's.
-/

namespace CallCheck.Greeter

open Call (Error Status)
open Schema (MessageType Pool)
open Session (CallRequest Ending Network Peer Transport)
open Wire (Record)
open Worker (Calling Process Step)

/-! ## Binary form -/

/-- The request that bytes write. -/
def Request.ofBytes? (bytes : List UInt8) : Option Request := do
  let records ← Wire.records? Schema.maxNesting bytes
  let count ← Wire.int? 2 records
  return ⟨(← Wire.text? 1 records).getD "", ((count.getD 0) % Numeric.capacity 32).toNat⟩

/-- A greeting in binary form. -/
def Reply.bytes (r : Reply) : List UInt8 :=
  Wire.writeRecords <| Schema.givenText 1 r.message ++
    if r.count = 0 then [] else [Record.varint 2 r.count]

/-! ## Messages of a client -/

/-- What is made of a message that a client sends: it must not be too large. -/
def readRequest (t : Transport) (pool : Pool) (type : MessageType) (m : Message.Value) :
    Except Status Request :=
  let bytes := Message.bytes pool type m
  if t.maxSend < bytes.length then .error ⟨.internal, "the message is too large"⟩
  else
    match Request.ofBytes? bytes with
    | some r => .ok r
    | none => .error ⟨.internal, "the message cannot be decoded"⟩

/-- What a client makes of a greeting: it must not be too large either. -/
def writeReply (t : Transport) (pool : Pool) (type : MessageType) (r : Reply) :
    Except Status Message.Value :=
  if t.maxReceive < r.bytes.length then .error ⟨.outOfRange, "the message is too large"⟩
  else
    match Message.ofBytes? pool type r.bytes with
    | some m => .ok m
    | none => .error ⟨.internal, "the message cannot be decoded"⟩

/-! ## Calls -/

/-- What comes of a call by a schedule. -/
def answer (t : Transport) (schedule : CallRequest → List Step) (r : CallRequest) : Ending :=
  let method := (r.data 0).method
  let type (name : String) := r.pool.messageType name
  match method.path with
  | .error e => ⟨false, .error e, 0⟩
  | .ok path =>
    let calling : Calling _ _ _ _ _ := {
      ask := Worker.askWith (Call.templateProvider r.pool (type method.input.full)) r.data
      provider := (r.templates, 0)
      intercept := Worker.letPass
      watch := ()
      limits := r.limits
      process := (process r.metadata).recode (readRequest t r.pool (type method.input.full))
        (writeReply t r.pool (type method.output.full))
      start := .ok (start path) }
    let (stopped, result) := calling.run method.kind (schedule r)
    ⟨stopped, Worker.conclude r.timeout result, 0⟩

/-- The Greeter, with calls by schedules. -/
def peer (t : Transport) (schedule : CallRequest → List Step) : Peer where
  reflection := .ofFiles [file]
  answer := answer t schedule

/-- The network on which every host is a Greeter, with calls by schedules. -/
def network (schedule : CallRequest → List Step) : Network := fun _ t ↦
  .connected (peer t schedule)

end CallCheck.Greeter

import CallCheck.Json.Write
import CallCheck.Numeric.Width
import CallCheck.Schema.Pool
import CallCheck.Text.Calendar
import CallCheck.Text.Template

/-!
# Data of a call

What the templates of a call can ask for: who is calling and what, which stays the same during a
call, and the instant and an identifier, which are taken anew for every message.
-/

namespace CallCheck.Call

/-- An instant in the forms that templates can ask for, and an identifier. -/
structure Sample where
  /-- The date and time. -/
  timestamp : String
  /-- Seconds since the start of 1970. -/
  seconds : Int
  /-- Milliseconds since the start of 1970. -/
  millis : Int
  /-- Nanoseconds since the start of 1970. -/
  nanos : Int
  /-- An identifier of its own. -/
  uuid : String
  deriving DecidableEq, Repr

/-- The sample of an instant in nanoseconds since the start of 1970. A count of nanoseconds that
64 bits cannot hold is replaced by the largest they can. -/
def Sample.at (nanos : Int) (uuid : String) : Sample where
  timestamp := Text.instant (nanos.fdiv 1000000000)
  seconds := nanos.fdiv 1000000000
  millis := nanos.fdiv 1000000
  nanos := if Numeric.hasWidth 64 nanos then nanos else Numeric.maxSigned 64
  uuid

/-- What the templates of a call can ask for. -/
structure Data where
  /-- The name of the worker that makes the call. -/
  workerId : String
  /-- The number of the call among those of the worker. -/
  requestNumber : Int
  /-- The method that is called. -/
  method : Schema.Method
  /-- The instant and the identifier. -/
  sample : Sample
  deriving DecidableEq, Repr

namespace Data

/-- The same call at another instant. -/
def regenerate (d : Data) (sample : Sample) : Data := { d with sample }

/-- The fields with their values, in order. -/
def members (d : Data) : List (String × Json) :=
  [("WorkerID", .string d.workerId), ("RequestNumber", .int d.requestNumber),
    ("FullyQualifiedName", .string d.method.fullName), ("MethodName", .string d.method.name),
    ("ServiceName", .string d.method.service.name), ("InputName", .string d.method.input.name),
    ("OutputName", .string d.method.output.name),
    ("IsClientStreaming", .bool d.method.clientStreaming),
    ("IsServerStreaming", .bool d.method.serverStreaming),
    ("Timestamp", .string d.sample.timestamp), ("TimestampUnix", .int d.sample.seconds),
    ("TimestampUnixMilli", .int d.sample.millis), ("TimestampUnixNano", .int d.sample.nanos),
    ("UUID", .string d.sample.uuid)]

/-- A value as templates show it: texts without quotes. -/
def plain : Json → String
  | .string s => s
  | j => j.text

/-- The text of a field. -/
def field? (d : Data) (key : String) : Option String := (d.members.lookup key).map plain

/-- The text with the slots for fields filled. -/
def render (d : Data) (template : String) : String := Text.Template.fillFields d.field? template

/-- The fields as a document. -/
def toJson (d : Data) : Json := .object d.members

end Data

end CallCheck.Call

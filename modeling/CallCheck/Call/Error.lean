import CallCheck.Call.Target
import CallCheck.Text.Calendar
import CallCheck.Text.Quoted

/-!
# Errors of calls

Why a call could not be prepared, or failed. `Error.message` is the text shown for each cause.
-/

namespace CallCheck.Call

/-- How a server can end a call. -/
inductive StatusCode
  | ok
  | cancelled
  | unknown
  | invalidArgument
  | deadlineExceeded
  | notFound
  | alreadyExists
  | permissionDenied
  | resourceExhausted
  | failedPrecondition
  | aborted
  | outOfRange
  | unimplemented
  | internal
  | unavailable
  | dataLoss
  | unauthenticated
  deriving DecidableEq, Repr

namespace StatusCode

/-- The code with a number; numbers without a meaning are `unknown`. -/
def ofNumber : Nat → StatusCode
  | 0 => .ok
  | 1 => .cancelled
  | 3 => .invalidArgument
  | 4 => .deadlineExceeded
  | 5 => .notFound
  | 6 => .alreadyExists
  | 7 => .permissionDenied
  | 8 => .resourceExhausted
  | 9 => .failedPrecondition
  | 10 => .aborted
  | 11 => .outOfRange
  | 12 => .unimplemented
  | 13 => .internal
  | 14 => .unavailable
  | 15 => .dataLoss
  | 16 => .unauthenticated
  | _ => .unknown

/-- The name of a code. -/
def name : StatusCode → String
  | .ok => "Ok"
  | .cancelled => "Cancelled"
  | .unknown => "Unknown"
  | .invalidArgument => "InvalidArgument"
  | .deadlineExceeded => "DeadlineExceeded"
  | .notFound => "NotFound"
  | .alreadyExists => "AlreadyExists"
  | .permissionDenied => "PermissionDenied"
  | .resourceExhausted => "ResourceExhausted"
  | .failedPrecondition => "FailedPrecondition"
  | .aborted => "Aborted"
  | .outOfRange => "OutOfRange"
  | .unimplemented => "Unimplemented"
  | .internal => "Internal"
  | .unavailable => "Unavailable"
  | .dataLoss => "DataLoss"
  | .unauthenticated => "Unauthenticated"

/-- What a code says, in words. -/
def description : StatusCode → String
  | .ok => "The operation completed successfully"
  | .cancelled => "The operation was cancelled"
  | .unknown => "Unknown error"
  | .invalidArgument => "Client specified an invalid argument"
  | .deadlineExceeded => "Deadline expired before operation could complete"
  | .notFound => "Some requested entity was not found"
  | .alreadyExists => "Some entity that we attempted to create already exists"
  | .permissionDenied => "The caller does not have permission to execute the specified operation"
  | .resourceExhausted => "Some resource has been exhausted"
  | .failedPrecondition =>
    "The system is not in a state required for the operation's execution"
  | .aborted => "The operation was aborted"
  | .outOfRange => "Operation was attempted past the valid range"
  | .unimplemented => "Operation is not implemented or not supported"
  | .internal => "Internal error"
  | .unavailable => "The service is currently unavailable"
  | .dataLoss => "Unrecoverable data loss or corruption"
  | .unauthenticated => "The request does not have valid authentication credentials"

end StatusCode

/-- How a call that failed at the server ended. -/
structure Status where
  /-- The code. -/
  code : StatusCode
  /-- What the server says about it. -/
  message : String := ""
  deriving DecidableEq, Repr

/-- The code and, if there is one, the message. -/
def Status.text (s : Status) : String :=
  let words := s!"code: '{s.code.description}'"
  if s.message.isEmpty then words else s!"{words}, message: {Text.quoted s.message}"

/-- Options that no connection can be opened with. -/
inductive ConfigFault
  /-- The host is no address. -/
  | host (text reason : String)
  /-- The authority is none. -/
  | authority (text reason : String)
  /-- The certificates or the name of the server cannot be used. -/
  | tls (reason : String)
  /-- There is no connection to ask over. -/
  | noConnection
  deriving DecidableEq, Repr

/-- What is at fault. -/
def ConfigFault.subject : ConfigFault → String
  | .host text _ => s!"host `{text}`"
  | .authority text _ => s!"authority `{text}`"
  | .tls _ => "tls"
  | .noConnection => "reflection needs an open connection"

/-- What is said about a fault. -/
def ConfigFault.message (fault : ConfigFault) : String :=
  match fault with
  | .host _ reason => s!"{fault.subject}: {reason}"
  | .authority _ reason => s!"{fault.subject}: {reason}"
  | .tls reason => s!"{fault.subject}: {reason}"
  | .noConnection => fault.subject

/-- Why a call could not be prepared, or failed. -/
inductive Error
  /-- The text names no method. -/
  | invalidTarget (target : String) (fault : TargetFault)
  /-- Files, or the answers of a server, do not make up a schema. -/
  | schema (origin reason : String)
  /-- The schema has nothing of this name. -/
  | symbolNotFound (name : String)
  /-- What has this name is not a service. -/
  | notAService (name : String)
  /-- The service has no such method. -/
  | methodNotFound (service method : String)
  /-- The server's account of its own schema is wrong or missing. -/
  | reflection (reason : String)
  /-- There was no connection in time. -/
  | dialTimeout (host : String) (millis : Nat)
  /-- There is no connection to the host. -/
  | unreachable (host reason : String)
  /-- The options of the connection make no sense. -/
  | invalidConfig (fault : ConfigFault)
  /-- The connection broke. -/
  | transport (reason : String)
  /-- The server ended the call with a status. -/
  | status (status : Status)
  /-- There was no next message to send. -/
  | provider (reason : String)
  /-- A text is no message of the type. -/
  | invalidMessage (type reason : String)
  /-- The call took too long. -/
  | deadlineExceeded (millis : Nat)
  /-- There was nothing to send. -/
  | noData
  deriving DecidableEq, Repr

/-- What is said about an error. -/
def Error.message : Error → String
  | .invalidTarget target fault => s!"invalid method target `{target}`: {fault.message}"
  | .schema origin reason => s!"failed to load schema from {origin}: {reason}"
  | .symbolNotFound name => s!"symbol `{name}` not found"
  | .notAService name => s!"symbol `{name}` is not a service"
  | .methodNotFound service method => s!"service `{service}` has no method `{method}`"
  | .reflection reason => s!"reflection failed: {reason}"
  | .dialTimeout host millis => s!"timed out connecting to {host} after {Text.duration millis}"
  | .unreachable host reason => s!"cannot reach {host}: {reason}"
  | .invalidConfig fault => s!"invalid transport configuration: {fault.message}"
  | .transport reason => s!"transport error: {reason}"
  | .status s => s!"call failed: {s.text}"
  | .provider reason => s!"message provider failed: {reason}"
  | .invalidMessage type reason => s!"invalid {type} payload: {reason}"
  | .deadlineExceeded millis => s!"call exceeded its {Text.duration millis} deadline"
  | .noData => "no data provided for request"

/-- The target that a text names. -/
def Target.parse (s : String) : Except Error Target :=
  match ofChars s.toList with
  | .ok t => .ok t
  | .error fault => .error (.invalidTarget s fault)

end CallCheck.Call

import CallCheck.Call.Error
import CallCheck.Expr.Error

/-!
# Failures

What went wrong in a run, and what was being done when it did.
-/

namespace CallCheck.Probe

/-- What went wrong. -/
inductive Cause
  /-- Something the program itself found. -/
  | note (text : String)
  /-- A text is not JSON, or not JSON of the right form. -/
  | json
  /-- A file could not be read. -/
  | file
  /-- A key or a value cannot be sent as metadata. -/
  | metadata
  /-- An expression failed. -/
  | expr (e : Expr.Error)
  /-- A call failed. -/
  | call (e : Call.Error)
  deriving DecidableEq, Repr

/-- A cause in its contexts. -/
structure Failure where
  /-- What was being done, the outermost first. -/
  contexts : List String := []
  /-- What went wrong. -/
  cause : Cause
  deriving DecidableEq, Repr

namespace Failure

/-- Something the program itself found. -/
def note (text : String) : Failure := ⟨[], .note text⟩

/-- The failure while something more was being done. -/
def within (f : Failure) (context : String) : Failure :=
  { f with contexts := context :: f.contexts }

end Failure

/-- What is said about a cause. -/
def Cause.message : Cause → String
  | .note text => text
  | .json => "malformed JSON"
  | .file => "the file cannot be read"
  | .metadata => "not allowed in metadata"
  | .expr e => e.message
  | .call e => e.message

/-- The contexts and the cause on one line. -/
def Failure.message (f : Failure) : String := ": ".intercalate (f.contexts ++ [f.cause.message])

/-- The causes below a heading, with numbers if there are several. -/
def causeLines : List String → List String
  | [] => []
  | [cause] => ["", "Caused by:", s!"    {cause}"]
  | causes => ["", "Caused by:"] ++ causes.zipIdx.map fun (cause, i) ↦ s!"    {i}: {cause}"

/-- What is said about a failure in lines of its own: the outermost context first. -/
def Failure.complaint (f : Failure) : List String :=
  match f.contexts ++ [f.cause.message] with
  | [] => []
  | headline :: causes => s!"Error: {headline}" :: causeLines causes

/-- A result with a context for its failure. -/
def within (context : String) : Except Failure α → Except Failure α
  | .ok a => .ok a
  | .error f => .error (f.within context)

end CallCheck.Probe

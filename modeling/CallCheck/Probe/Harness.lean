import CallCheck.Expr.Eval
import CallCheck.Probe.Failure
import CallCheck.Text.Template

/-!
# Harness

What the expressions of a run see: an environment that lasts from one entry to the next, and the
request and response of the call made last.
-/

namespace CallCheck.Probe

/-- What the expressions of a run see. -/
structure Harness extends Expr.Context
  deriving Repr

namespace Harness

/-- The text with the slots of environment values filled. -/
def substitute (h : Harness) : String → String :=
  Text.Template.fillNames fun name ↦ (h.env.get? name).map Expr.Value.text

/-- A character that a header shows as text. -/
def isVisible (c : Char) : Bool := c == '\t' || (0x20 ≤ c.toNat && c.toNat < 0x7f)

/-- The headers of an answer that are text: keys that end in `-bin` have bytes as values. -/
def textHeaders (metadata : List (String × String)) : List (String × String) :=
  metadata.filter fun (key, value) ↦
    !("-bin".toList.reverse.isPrefixOf key.toList.reverse) && value.toList.all isVisible

/-- Makes a call visible: what was sent, and the last document received, if any. -/
def record (h : Harness) (payload : String) (metadata : List (String × String))
    (reply : Option Json) (answered : List (String × String)) : Harness :=
  let body := (reply.map Json.text).getD ""
  { h with sides := {
      request := some ⟨Text.Utf8.encode payload, metadata⟩
      response := some ⟨Text.Utf8.encode body, textHeaders answered⟩ } }

/-- Evaluates an expression. -/
def evaluate (h : Harness) (source : String) : Except Expr.Error Expr.Value × Harness :=
  (h.toContext.evaluate source).map id Harness.mk

/-- Evaluates expectations in order, up to the first that fails or is false. -/
def check (h : Harness) : List String → Except Failure Unit × Harness
  | [] => (.ok (), h)
  | source :: rest =>
    match h.evaluate source with
    | (.error e, h) =>
      (.error ⟨[s!"expectation `{source}` could not be evaluated"], .expr e⟩, h)
    | (.ok value, h) =>
      if value.asBool? = some false then
        (.error (.note s!"expectation `{source}` does not hold"), h)
      else h.check rest

/-- Evaluates events in order, up to the first that fails. -/
def apply (h : Harness) : List String → Except Failure Unit × Harness
  | [] => (.ok (), h)
  | source :: rest =>
    match h.evaluate source with
    | (.error e, h) => (.error ⟨[s!"event `{source}` failed"], .expr e⟩, h)
    | (.ok _, h) => h.apply rest

end Harness

end CallCheck.Probe

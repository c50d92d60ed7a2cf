import CallCheck.Expr.Token
import CallCheck.Text.Quoted

/-!
# Errors of expressions

Why a source does not read as an expression, or an expression has no value. `Error.message` is the
text shown for each cause.
-/

namespace CallCheck.Expr

/-- What a value must allow for a dot or an assignment through a dot to apply. -/
inductive Capability
  /-- Taking an attribute. -/
  | get
  /-- Assigning to an attribute. -/
  | set
  deriving DecidableEq, Repr

/-- The name of a capability in messages. -/
def Capability.text : Capability → String
  | .get => "attribute access"
  | .set => "assignment"

/-- Why an expression cannot be read or evaluated. -/
inductive Error
  /-- No token starts with this character. -/
  | unexpectedChar (found : Char) (offset : Nat)
  /-- No keyword is spelled like this, its sign included. -/
  | unknownKeyword (keyword : String) (offset : Nat)
  /-- A quoted text has no closing quote. -/
  | unterminatedString (offset : Nat)
  /-- A number is too large. -/
  | invalidNumber (literal : String) (offset : Nat)
  /-- A token cannot stand where it does. -/
  | unexpectedToken (expected found : String) (offset : Nat)
  /-- The expression nests too deep. -/
  | tooDeep (limit offset : Nat)
  /-- The value lacks a capability. -/
  | capability (value : String) (capability : Capability)
  /-- What follows a dot is not a name. -/
  | invalidAttribute (found : String)
  /-- The value has no attribute of this name. -/
  | unknownAttribute (value name : String)
  /-- A name stands alone. -/
  | unboundVariable (name : String)
  /-- A selector stands alone. -/
  | detachedAttribute (attr : String)
  /-- What is assigned to is not a path. -/
  | invalidAssignment (target : String)
  /-- The value is a reference, which cannot be kept. -/
  | notStorable (value : String)
  /-- A function has the wrong number of arguments. -/
  | arity (function : String) (expected found : Nat)
  /-- An argument of a function has the wrong type. -/
  | argumentType (function : String) (position : Nat) (expected found : String)
  /-- There is no request or no response. -/
  | unavailable (side : String)
  /-- A body is not JSON. -/
  | json
  deriving DecidableEq, Repr

namespace Error

/-- The name of the cause. -/
def name : Error → String
  | .unexpectedChar .. => "UnexpectedChar"
  | .unknownKeyword .. => "UnknownKeyword"
  | .unterminatedString .. => "UnterminatedString"
  | .invalidNumber .. => "InvalidNumber"
  | .unexpectedToken .. => "UnexpectedToken"
  | .tooDeep .. => "TooDeep"
  | .capability .. => "Capability"
  | .invalidAttribute .. => "InvalidAttribute"
  | .unknownAttribute .. => "UnknownAttribute"
  | .unboundVariable .. => "UnboundVariable"
  | .detachedAttribute .. => "DetachedAttribute"
  | .invalidAssignment .. => "InvalidAssignment"
  | .notStorable .. => "NotStorable"
  | .arity .. => "Arity"
  | .argumentType .. => "ArgumentType"
  | .unavailable .. => "Unavailable"
  | .json => "Json"

/-- What is said about an error. -/
def message : Error → String
  | .unexpectedChar found offset =>
    s!"unexpected character {Text.quotedChar found} at offset {offset}"
  | .unknownKeyword keyword offset => s!"unknown keyword `{keyword}` at offset {offset}"
  | .unterminatedString offset => s!"unterminated string literal starting at offset {offset}"
  | .invalidNumber literal offset => s!"invalid number literal `{literal}` at offset {offset}"
  | .unexpectedToken expected found offset =>
    s!"expected {expected} but found {found} at offset {offset}"
  | .tooDeep limit offset => s!"expression nests deeper than {limit} levels at offset {offset}"
  | .capability value needed => s!"{value} does not support {needed.text}"
  | .invalidAttribute found => s!"{found} cannot be used as an attribute name"
  | .unknownAttribute value name => s!"{value} has no attribute `{name}`"
  | .unboundVariable name => s!"unbound variable `{name}`"
  | .detachedAttribute attr => s!"`{attr}` must follow a dot"
  | .invalidAssignment target => s!"cannot assign to {target}"
  | .notStorable value => s!"{value} cannot be stored in the environment"
  | .arity function expected found =>
    s!"@{function} expects {expected} arguments, got {found}"
  | .argumentType function position expected found =>
    s!"@{function} argument {position} must be {expected}, got {found}"
  | .unavailable side => s!"no {side} is available in this context"
  | .json => "body is not valid JSON"

end Error

end CallCheck.Expr

import CallCheck.Expr.Error
import CallCheck.Json.Read
import CallCheck.Json.Write
import CallCheck.Text.Utf8

/-!
# Values of expressions

The result of an evaluation is plain data or a handle, a reference to a part of the call that is
read only when an attribute is taken from it. Scalars taken out of JSON are plain values;
`Value.object` and `Value.array` are what stays JSON.
-/

namespace CallCheck.Expr

open Numeric

/-- A side of a call. -/
inductive Side
  | request
  | response
  deriving DecidableEq, Repr

/-- The name of a side in messages. -/
def Side.name : Side → String
  | .request => "request"
  | .response => "response"

/-- A reference to a part of the call. -/
inductive Handle
  /-- The environment. -/
  | env
  /-- A side as a whole. -/
  | message (side : Side)
  /-- The body of a side. -/
  | body (side : Side)
  /-- The headers of a side. -/
  | headers (side : Side)
  deriving DecidableEq, Repr

/-- A value. -/
inductive Value
  | null
  | bool (b : Bool)
  | int (i : Int64)
  | float (x : Binary64)
  | string (s : String)
  | bytes (bs : List UInt8)
  | array (items : List Json)
  | object (members : List (String × Json))
  | handle (h : Handle)
  deriving Repr

namespace Value

/-- The name of a value's type in messages. -/
def typeName : Value → String
  | .null => "null"
  | .bool _ => "bool"
  | .int _ => "int"
  | .float _ => "float"
  | .string _ => "string"
  | .bytes _ => "bytes"
  | .array _ => "array"
  | .object _ => "object"
  | .handle .env => "$env"
  | .handle (.message .request) => "$req"
  | .handle (.message .response) => "$res"
  | .handle (.body _) => "$body"
  | .handle (.headers _) => "$header"

/-- Whether a value is a reference. -/
def isHandle : Value → Bool
  | .handle _ => true
  | _ => false

/-- Whether a value has a capability: handles and JSON have attributes, and only those of the
environment can be assigned to. -/
def supports : Value → Capability → Bool
  | .handle .env, _ => true
  | .handle _, .get => true
  | .array _, .get => true
  | .object _, .get => true
  | _, _ => false

/-- The value of a JSON number: an integer that fits 64 bits with sign, or else a double. -/
def ofNumber : Json.Number → Value
  | .int i => if hasWidth 64 i then .int (.ofInt i) else .float (.ofInt i)
  | .real x => .float x

/-- The value of a JSON document. -/
def ofJson : Json → Value
  | .null => .null
  | .bool b => .bool b
  | .number n => ofNumber n
  | .string s => .string s
  | .array items => .array items
  | .object members => .object members

/-- The JSON form of a value. References have none, nor have numbers that are not finite. -/
def toJson : Value → Json
  | .null => .null
  | .bool b => .bool b
  | .int i => .int i.toInt
  | .float x => if x.isFinite then .number (.real x) else .null
  | .string s => .string s
  | .bytes bs => .string (Text.Utf8.decodeLossy bs)
  | .array items => .array items
  | .object members => .object members
  | .handle _ => .null

/-- The text of a value: what it is replaced by in a template and searched for. -/
def text : Value → String
  | .null => "null"
  | .bool b => toString b
  | .int i => toString i.toInt
  | .float x => x.plainText
  | .string s => s
  | .bytes bs => Text.Utf8.decodeLossy bs
  | .array items => (Json.array items).text
  | .object members => (Json.object members).text
  | .handle h => (Value.handle h).typeName

/-- The truth of a value that is a truth value. -/
def asBool? : Value → Option Bool
  | .bool b => some b
  | _ => none

end Value

end CallCheck.Expr

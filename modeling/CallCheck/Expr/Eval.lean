import CallCheck.Expr.Context
import CallCheck.Expr.Parse

/-!
# Evaluating expressions

An evaluation threads its context through its parts from left to right and ends at the first error;
what was assigned before it stays assigned. `Tree.eval` answers with the value or the error and the
context that is left, of which assignments change the environment.
-/

namespace CallCheck.Expr

/-- What can follow a dot. -/
inductive Name
  | attr (a : Attr)
  | field (name : String)
  | index (i : Int64)
  deriving DecidableEq, Repr

namespace Name

/-- The name that an expression after a dot stands for. -/
def of : Tree → Except Error Name
  | .attr a => .ok (.attr a)
  | .variable name => .ok (.field name)
  | .literal (.int i) => .ok (.index i)
  | other => .error (.invalidAttribute other.describe)

/-- How a name is written. -/
def text : Name → String
  | .attr a => a.lexeme
  | .field name => name
  | .index i => toString i.toInt

/-- The error that a value has no attribute of a name. -/
def unknownOn (n : Name) (receiver : Value) : Error :=
  .unknownAttribute receiver.typeName n.text

end Name

/-- The value of a literal. -/
def Literal.value : Literal → Value
  | .int i => .int i
  | .float x => .float x
  | .string s => .string s

/-- The value of an optional document, null if there is none. -/
def valueOr (j : Option Json) : Value := (j.map Value.ofJson).getD .null

/-- How a selector reads a body: as text, as bytes or as JSON. -/
def bodyView? : Attr → Option (List UInt8 → Except Error Value)
  | .str => some fun body ↦ .ok (.string (Text.Utf8.decodeLossy body))
  | .raw => some fun body ↦ .ok (.bytes body)
  | .json => some fun body ↦
    match Json.parseBytes? body with
    | some j => .ok (.ofJson j)
    | none => .error .json
  | _ => none

/-- The attribute of a value under a name. -/
def Context.get (c : Context) (receiver : Value) (name : Name) : Except Error Value :=
  if receiver.supports .get then
    match receiver, name with
    | .handle .env, .field key => .ok ((c.env.get? key).getD .null)
    | .handle (.message side), .attr .body => .ok (.handle (.body side))
    | .handle (.message side), .attr .header => .ok (.handle (.headers side))
    | .handle (.body side), .attr a =>
      match bodyView? a with
      | some view => (c.sides.get side).bind fun x ↦ view x.body
      | none => .error (name.unknownOn receiver)
    | .handle (.headers side), .field key =>
      (c.sides.get side).bind fun x ↦ .ok (((x.header? key).map Value.string).getD .null)
    | .object members, .field key => .ok (valueOr (Json.lookup key members))
    | .object members, .index i => .ok (valueOr (Json.lookup (toString i.toInt) members))
    | .array items, .index i =>
      .ok (if 0 ≤ i.toInt then valueOr items[i.toInt.toNat]? else .null)
    | receiver, name => .error (name.unknownOn receiver)
  else .error (.capability receiver.typeName .get)

/-- The key that an assignment through a value and a name writes. -/
def assignKey (receiver : Value) (right : Tree) : Except Error String :=
  if receiver.supports .set then
    match Name.of right with
    | .error e => .error e
    | .ok (.field key) => .ok key
    | .ok other => .error (other.unknownOn receiver)
  else .error (.capability receiver.typeName .set)

/-- Whether the text of one value contains a second, which must be a text. -/
def containsValue (haystack needle : Value) : Except Error Value :=
  match needle with
  | .string s => .ok (.bool (Text.contains haystack.text s))
  | other => .error (.argumentType Function.contain.name 2 "a string" other.typeName)

/-- The value of an expression, or the first error, and the context it leaves. -/
def Tree.eval : Tree → Context → Except Error Value × Context
  | .global .env, c => (.ok (.handle .env), c)
  | .global .res, c => (.ok (.handle (.message .response)), c)
  | .global .req, c => (.ok (.handle (.message .request)), c)
  | .attr a, c => (.error (.detachedAttribute a.lexeme), c)
  | .variable name, c => (.error (.unboundVariable name), c)
  | .literal l, c => (.ok l.value, c)
  | .dot left right, c =>
    match left.eval c with
    | (.error e, c) => (.error e, c)
    | (.ok receiver, c) => ((Name.of right).bind (c.get receiver), c)
  | .assign (.dot left right) source, c =>
    match left.eval c with
    | (.error e, c) => (.error e, c)
    | (.ok receiver, c) =>
      match assignKey receiver right with
      | .error e => (.error e, c)
      | .ok key =>
        match source.eval c with
        | (.error e, c) => (.error e, c)
        | (.ok value, c) =>
          if value.isHandle then (.error (.notStorable value.typeName), c)
          else (.ok value, c.set key value)
  | .assign target _, c => (.error (.invalidAssignment target.describe), c)
  | .call .contain [haystack, needle], c =>
    match haystack.eval c with
    | (.error e, c) => (.error e, c)
    | (.ok haystack, c) =>
      match needle.eval c with
      | (.error e, c) => (.error e, c)
      | (.ok needle, c) => (containsValue haystack needle, c)
  | .call .contain args, c => (.error (.arity Function.contain.name 2 args.length), c)

/-- The value of the expression that a source spells. A source that spells none is an error that
leaves the context as it was. -/
def Context.evaluate (c : Context) (source : String) : Except Error Value × Context :=
  match parse source with
  | .error e => (.error e, c)
  | .ok tree => tree.eval c

/-- The value of an expression for the sides of a call, and the environment it leaves. -/
def eval (sides : Exchanges) (tree : Tree) (env : Env) : Except Error Value × Env :=
  (tree.eval ⟨env, sides⟩).map id Context.env

/-- The value of a source for the sides of a call, and the environment it leaves. -/
def evaluate (sides : Exchanges) (source : String) (env : Env) : Except Error Value × Env :=
  (Context.evaluate ⟨env, sides⟩ source).map id Context.env

end CallCheck.Expr

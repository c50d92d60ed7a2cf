import CallCheck.Numeric.Binary

/-!
# Tokens of expressions

The words of the expression language. A token carries the value it spells; its `kind` is how error
messages name it.
-/

namespace CallCheck.Expr

open Numeric

/-- What a path starts from: the environment, the response or the request. -/
inductive Global
  | env
  | res
  | req
  deriving DecidableEq, Repr

/-- A selector with a meaning of its own after a dot. -/
inductive Attr
  | body
  | json
  | str
  | header
  | raw
  deriving DecidableEq, Repr

/-- A built-in function. -/
inductive Function
  /-- Whether the text of one value contains another. -/
  | contain
  deriving DecidableEq, Repr

/-- How a global is written. -/
def Global.lexeme : Global → String
  | .env => "$env"
  | .res => "$res"
  | .req => "$req"

/-- How a selector is written. -/
def Attr.lexeme : Attr → String
  | .body => "$body"
  | .json => "$json"
  | .str => "$str"
  | .header => "$header"
  | .raw => "$raw"

/-- The name of a function, which follows the sign `@`. -/
def Function.name : Function → String
  | .contain => "contain"

/-- A word of the language. -/
inductive Token
  | global (g : Global)
  | attr (a : Attr)
  | function (f : Function)
  | dot
  | assign
  | comma
  | leftParen
  | rightParen
  /-- An integer. -/
  | number (i : Int64)
  /-- A number with a fraction. -/
  | real (x : Binary64)
  /-- A quoted text. -/
  | string (s : String)
  /-- A word of letters. -/
  | identifier (s : String)
  deriving DecidableEq, Repr

/-- How messages name a token. -/
def Token.kind : Token → String
  | .global g => "`" ++ g.lexeme ++ "`"
  | .attr a => "`" ++ a.lexeme ++ "`"
  | .function f => "`@" ++ f.name ++ "`"
  | .dot => "`.`"
  | .assign => "`=`"
  | .comma => "`,`"
  | .leftParen => "`(`"
  | .rightParen => "`)`"
  | .number _ => "a number"
  | .real _ => "a real number"
  | .string _ => "a string"
  | .identifier _ => "an identifier"

/-- A token and the byte at which it starts. -/
structure Located where
  /-- The token. -/
  token : Token
  /-- The offset of its first byte. -/
  offset : Nat
  deriving DecidableEq, Repr

/-- The tokens of a source. -/
structure Tokens where
  /-- The tokens in order. -/
  list : List Located
  /-- The length of the source in bytes, at which it ends. -/
  finish : Nat
  deriving DecidableEq, Repr

/-- How messages name what comes first in a list of tokens. -/
def nextKind : List Located → String
  | [] => "end of input"
  | t :: _ => t.token.kind

/-- Where the first token of a list starts, in a source that ends at `finish`. -/
def nextOffset (finish : Nat) : List Located → Nat
  | [] => finish
  | t :: _ => t.offset

end CallCheck.Expr

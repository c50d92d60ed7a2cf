import CallCheck.Expr.Token

/-!
# Expression trees

What a source means before it is evaluated. The type also holds trees that no source spells, such
as a negative literal or a path whose last component is an assignment.
-/

namespace CallCheck.Expr

open Numeric

/-- A literal value. -/
inductive Literal
  | int (i : Int64)
  | float (x : Binary64)
  | string (s : String)
  deriving DecidableEq, Repr

/-- An expression. -/
inductive Tree
  | global (g : Global)
  | attr (a : Attr)
  | variable (name : String)
  | literal (l : Literal)
  /-- An attribute of a value. -/
  | dot (left right : Tree)
  /-- An assignment to an attribute. -/
  | assign (target source : Tree)
  /-- A function call. -/
  | call (f : Function) (args : List Tree)
  deriving Repr, Inhabited

namespace Tree

/-- How messages name an expression. -/
def describe : Tree → String
  | .global _ => "a global"
  | .attr _ => "an attribute"
  | .variable _ => "an identifier"
  | .literal (.int _) => "a number"
  | .literal (.float _) => "a number"
  | .literal (.string _) => "a string"
  | .dot .. => "an attribute path"
  | .assign .. => "an assignment"
  | .call .. => "a function call"

mutual

/-- The number of expressions on the longest way from an expression down into its parts. -/
def height : Tree → Nat
  | .dot left right => max left.height right.height + 1
  | .assign target source => max target.height source.height + 1
  | .call _ args => heights args + 1
  | _ => 1

/-- The greatest height of expressions, zero if there are none. -/
def heights : List Tree → Nat
  | [] => 0
  | t :: rest => max t.height (heights rest)

end

end Tree

end CallCheck.Expr

import CallCheck.Expr.Lexeme
import CallCheck.Expr.Tree

/-!
# Reading expressions

A recursive descent over the tokens of a source, for the grammar

* `expr := path ('=' expr)?`
* `path := atom ('.' atom)*`
* `atom := global | attribute | identifier | number | real | string | call`
* `call := function '(' expr (',' expr)* ')'`

Paths associate to the left and assignments to the right. Every reader takes the tokens and the
level at which the counter stands, and gives what it read, how many tokens that took and where it
left the counter.

## Levels

An expression raises the counter by one for as long as it is read, and so does each dot of a path;
a path lowers it again by all of its dots at once. No level may exceed `maxDepth`. The counter is
an integer, so that lowering it too far would show.
-/

namespace CallCheck.Expr

/-- The deepest level. -/
def maxDepth : Nat := 64

/-- The first of the tokens cannot stand there. -/
def unexpected (finish : Nat) (expected : String) (ts : List Located) : Error :=
  .unexpectedToken expected (nextKind ts) (nextOffset finish ts)

/-- The tokens start below the deepest level. -/
def tooDeep (finish : Nat) (ts : List Located) : Error :=
  .tooDeep maxDepth (nextOffset finish ts)

/-- What a reader has read. -/
structure Reading (α : Type) where
  /-- The value that the tokens spell. -/
  value : α
  /-- How many tokens were taken. -/
  taken : Nat
  /-- Where the counter of levels was left. -/
  level : Int
  deriving Repr

mutual

/-- Reads an expression. -/
def parseExpr (finish : Nat) (level : Int) (ts : List Located) : Except Error (Reading Tree) :=
  if maxDepth < level + 1 then .error (tooDeep finish ts)
  else
    match parsePath finish (level + 1) ts with
    | .error e => .error e
    | .ok ⟨left, n, level⟩ =>
      match _ : ts.drop n with
      | ⟨.assign, _⟩ :: rest =>
        match parseExpr finish level rest with
        | .error e => .error e
        | .ok ⟨right, m, level⟩ => .ok ⟨.assign left right, n + 1 + m, level - 1⟩
      | _ => .ok ⟨left, n, level - 1⟩
termination_by (ts.length, 4)
decreasing_by
  · exact Prod.Lex.right _ (by decide)
  · refine Prod.Lex.left _ _ ?_
    have := congrArg List.length ‹ts.drop n = _›
    simp only [List.length_drop, List.length_cons] at this
    omega

/-- Reads a path. -/
def parsePath (finish : Nat) (level : Int) (ts : List Located) : Except Error (Reading Tree) :=
  match parseAtom finish level ts with
  | .error e => .error e
  | .ok ⟨first, n, level⟩ =>
    match parseDots finish level 0 first (ts.drop n) with
    | .error e => .error e
    | .ok ⟨path, m, level⟩ => .ok ⟨path, n + m, level⟩
termination_by (ts.length, 3)
decreasing_by
  · exact Prod.Lex.right _ (by decide)
  · rcases Nat.lt_or_ge (ts.drop n).length ts.length with h | h
    · exact Prod.Lex.left _ _ h
    · have : (ts.drop n).length = ts.length :=
        Nat.le_antisymm (by simp [List.length_drop]) h
      rw [this]
      exact Prod.Lex.right _ (by decide)

/-- Reads the dots that follow a path with a number of dots, and their right sides. -/
def parseDots (finish : Nat) (level : Int) (dots : Nat) (path : Tree) (ts : List Located) :
    Except Error (Reading Tree) :=
  match ts with
  | ⟨.dot, _⟩ :: rest =>
    if maxDepth < level + 1 then .error (tooDeep finish rest)
    else
      match parseAtom finish (level + 1) rest with
      | .error e => .error e
      | .ok ⟨right, n, level⟩ =>
        match parseDots finish level (dots + 1) (.dot path right) (rest.drop n) with
        | .error e => .error e
        | .ok ⟨path, m, level⟩ => .ok ⟨path, 1 + n + m, level⟩
  | _ => .ok ⟨path, 0, level - dots⟩
termination_by (ts.length, 2)
decreasing_by
  · exact Prod.Lex.left _ _ (by simp)
  · exact Prod.Lex.left _ _ (by simp only [List.length_drop, List.length_cons]; omega)

/-- Reads an atom. -/
def parseAtom (finish : Nat) (level : Int) (ts : List Located) : Except Error (Reading Tree) :=
  match ts with
  | ⟨.global g, _⟩ :: _ => .ok ⟨.global g, 1, level⟩
  | ⟨.attr a, _⟩ :: _ => .ok ⟨.attr a, 1, level⟩
  | ⟨.identifier s, _⟩ :: _ => .ok ⟨.variable s, 1, level⟩
  | ⟨.number i, _⟩ :: _ => .ok ⟨.literal (.int i), 1, level⟩
  | ⟨.real x, _⟩ :: _ => .ok ⟨.literal (.float x), 1, level⟩
  | ⟨.string s, _⟩ :: _ => .ok ⟨.literal (.string s), 1, level⟩
  | ⟨.function f, _⟩ :: ⟨.leftParen, _⟩ :: rest =>
    match parseArgs finish level rest with
    | .error e => .error e
    | .ok ⟨args, n, level⟩ => .ok ⟨.call f args, n + 2, level⟩
  | ⟨.function _, _⟩ :: rest => .error (unexpected finish "`(`" rest)
  | ts => .error (unexpected finish "a global, attribute, identifier, literal or call" ts)
termination_by (ts.length, 1)
decreasing_by exact Prod.Lex.left _ _ (by simp only [List.length_cons]; omega)

/-- Reads the arguments of a call and its closing parenthesis. -/
def parseArgs (finish : Nat) (level : Int) (ts : List Located) :
    Except Error (Reading (List Tree)) :=
  match parseExpr finish level ts with
  | .error e => .error e
  | .ok ⟨arg, n, level⟩ =>
    match _ : ts.drop n with
    | ⟨.comma, _⟩ :: rest =>
      match parseArgs finish level rest with
      | .error e => .error e
      | .ok ⟨args, m, level⟩ => .ok ⟨arg :: args, n + 1 + m, level⟩
    | ⟨.rightParen, _⟩ :: _ => .ok ⟨[arg], n + 1, level⟩
    | rest => .error (unexpected finish "`,` or `)`" rest)
termination_by (ts.length, 5)
decreasing_by
  · exact Prod.Lex.right _ (by decide)
  · refine Prod.Lex.left _ _ ?_
    have := congrArg List.length ‹ts.drop n = _›
    simp only [List.length_drop, List.length_cons] at this
    omega

end

/-- The expression that tokens spell, all of them. -/
def ofTokens (ts : Tokens) : Except Error Tree :=
  match parseExpr ts.finish 0 ts.list with
  | .error e => .error e
  | .ok ⟨tree, n, _⟩ =>
    match ts.list.drop n with
    | [] => .ok tree
    | rest => .error (unexpected ts.finish "end of input" rest)

/-- The expression that a source spells. -/
def parse (source : String) : Except Error Tree :=
  match tokenize source with
  | .error e => .error e
  | .ok ts => ofTokens ts

end CallCheck.Expr

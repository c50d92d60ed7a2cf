import CallCheck.Expr.Parse

/-!
# The grammar of expressions

Which tokens spell which expression, as relations with one rule for each production:

* `expr := path ('=' expr)?`
* `path := atom ('.' atom)*`
* `atom := leaf | call`
* `call := function '(' expr (',' expr)* ')'`

The rules say nothing of how tokens are read: no token is looked at ahead of its turn, and nothing
is tried in an order.

## Levels

Each rule also says at which level of nesting its parts are read, and that this level is within a
limit. An expression entered at a level runs one level deeper; an atom with `dots` dots before it
is read `dots` levels below the first atom of its path; the right side of an assignment is entered
at the level at which the assignment runs, and an argument at the level of its call.
-/

namespace CallCheck.Expr

/-- The expression that a token spells by itself. -/
def Token.leaf? : Token → Option Tree
  | .global g => some (.global g)
  | .attr a => some (.attr a)
  | .identifier name => some (.variable name)
  | .number i => some (.literal (.int i))
  | .real x => some (.literal (.float x))
  | .string s => some (.literal (.string s))
  | _ => none

/-- The tokens of a source without their places. -/
def words (ts : List Located) : List Token := ts.map Located.token

@[simp] theorem words_nil : words [] = [] := rfl

@[simp] theorem words_cons (t : Located) (ts : List Located) :
    words (t :: ts) = t.token :: words ts := rfl

@[simp] theorem words_append (ts us : List Located) : words (ts ++ us) = words ts ++ words us :=
  List.map_append

/-! ## The rules -/

mutual

/-- Tokens that spell an expression entered at a level. -/
inductive SpellsExpr (limit : Int) : Int → List Token → Tree → Prop
  | path {level : Int} {ts : List Token} {dots : Nat} {t : Tree} :
      level + 1 ≤ limit → SpellsPath limit (level + 1) ts dots t → SpellsExpr limit level ts t
  | assign {level : Int} {ts us : List Token} {dots : Nat} {target source : Tree} :
      level + 1 ≤ limit → SpellsPath limit (level + 1) ts dots target →
      SpellsExpr limit (level + 1) us source →
      SpellsExpr limit level (ts ++ .assign :: us) (.assign target source)

/-- Tokens that spell a path with a number of dots, whose first atom is read at a level. -/
inductive SpellsPath (limit : Int) : Int → List Token → Nat → Tree → Prop
  | atom {level : Int} {ts : List Token} {t : Tree} :
      SpellsAtom limit level ts t → SpellsPath limit level ts 0 t
  | dot {level : Int} {ts us : List Token} {dots : Nat} {left right : Tree} :
      SpellsPath limit level ts dots left → level + dots + 1 ≤ limit →
      SpellsAtom limit (level + dots + 1) us right →
      SpellsPath limit level (ts ++ .dot :: us) (dots + 1) (.dot left right)

/-- Tokens that spell an atom read at a level. -/
inductive SpellsAtom (limit : Int) : Int → List Token → Tree → Prop
  | leaf {level : Int} {token : Token} {t : Tree} :
      token.leaf? = some t → SpellsAtom limit level [token] t
  | call {level : Int} {ts : List Token} {f : Function} {args : List Tree} :
      SpellsArgs limit level ts args →
      SpellsAtom limit level (.function f :: .leftParen :: (ts ++ [.rightParen])) (.call f args)

/-- Tokens that spell the arguments of a call read at a level. -/
inductive SpellsArgs (limit : Int) : Int → List Token → List Tree → Prop
  | last {level : Int} {ts : List Token} {t : Tree} :
      SpellsExpr limit level ts t → SpellsArgs limit level ts [t]
  | more {level : Int} {ts us : List Token} {t : Tree} {args : List Tree} :
      SpellsExpr limit level ts t → SpellsArgs limit level us args →
      SpellsArgs limit level (ts ++ .comma :: us) (t :: args)

end

end CallCheck.Expr

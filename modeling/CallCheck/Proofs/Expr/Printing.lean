import CallCheck.Proofs.Expr.Cutting
import CallCheck.Proofs.Expr.Parsing
import CallCheck.Proofs.Json.Writing

/-!
# Printing expressions

An expression is printed as the tokens that spell it, with one space between any two. A space ends
every token and extends none, so the tokens of the printed source are the ones that were printed;
and the grammar gives them back the tree, since a path is built from the left and an assignment
from the right, as they are printed.

## What can be printed

Not every tree has a source. `Tree.IsWritable` leaves out names that are no words, numbers without
a token of their own, and operands that the grammar would read differently or not at all.
`Tree.levels` is the depth at which the parts of an expression are read: the counter of the readers
in terms of the tree.

## Main statement

`parse_print`: what is printed is parsed as the same tree if its levels last, and is too deep
otherwise.
-/

namespace CallCheck.Expr

open Numeric Text

/-! ## Tokens -/

/-- A character as it stands between quotes. -/
def escape (c : Char) : List Char := if c = '"' ∨ c = '\\' then ['\\', c] else [c]

/-- The characters that a token is printed with. -/
def Token.chars : Token → List Char
  | .global g => g.lexeme.toList
  | .attr a => a.lexeme.toList
  | .function f => '@' :: f.name.toList
  | .dot => ['.']
  | .assign => ['=']
  | .comma => [',']
  | .leftParen => ['(']
  | .rightParen => [')']
  | .number i => (toString i.toInt).toList
  | .real x => x.plainText.toList
  | .string s => '"' :: (s.toList.flatMap escape ++ ['"'])
  | .identifier s => s.toList

/-- A token that is read back from its characters: no number with a fraction, no negative number,
and no name but a word of letters. -/
def Token.IsPrintable : Token → Prop
  | .number i => 0 ≤ i.toInt
  | .real _ => False
  | .identifier s => s ≠ "" ∧ ∀ c ∈ s.toList, isAlphabetic c = true
  | _ => True

/-- Tokens with one space between any two. -/
def printTokens (us : List Token) : String :=
  " ".intercalate (us.map fun u ↦ String.ofList u.chars)

/-- A text that goes on with a space, if it goes on. -/
def SpaceNext (rest : List Char) : Prop := ∀ c ∈ rest.head?, c = ' '

theorem SpaceNext.isRun {p : Char → Bool} {cs rest : List Char} (h : SpaceNext rest)
    (hall : ∀ c ∈ cs, p c = true) (hspace : p ' ' = false) : IsRun p cs rest := by
  refine ⟨hall, fun c hc ↦ ?_⟩
  rwa [h c hc]

theorem SpaceNext.not_hasFraction {rest : List Char} (h : SpaceNext rest) : ¬ HasFraction rest := by
  rintro ⟨d, more, rfl, -⟩
  exact absurd (h '.' rfl) (by decide)

theorem quotes_flatMap_escape (cs : List Char) : Quotes (cs.flatMap escape) cs := by
  induction cs with
  | nil => exact .nil
  | cons c cs ih =>
    rw [List.flatMap_cons, escape]
    split
    · rename_i hc
      exact .escaped hc ih
    · rename_i hc
      exact .plain (fun h ↦ hc (.inl h)) (fun h ↦ hc (.inr h)) ih

theorem isLexeme_identifier {name : String} {rest : List Char} (hne : name ≠ "")
    (hall : ∀ c ∈ name.toList, isAlphabetic c = true) (hrest : SpaceNext rest) :
    IsLexeme name.toList (.identifier name) rest := by
  have hrun : IsRun isAlphabetic name.toList rest := hrest.isRun hall (by decide)
  cases hchars : name.toList with
  | nil => exact absurd (String.toList_eq_nil_iff.1 hchars) hne
  | cons c letters =>
    rw [hchars] at hrun
    have hlexeme := IsLexeme.identifier hrun
    rwa [← hchars, String.ofList_toList, hchars] at hlexeme

theorem isLexeme_number {i : Int64} {rest : List Char} (hi : 0 ≤ i.toInt)
    (hrest : SpaceNext rest) : IsLexeme (toString i.toInt).toList (.number i) rest := by
  obtain ⟨n, hn⟩ := Int.eq_ofNat_of_zero_le hi
  have hchars : (toString i.toInt).toList = decimalDigits n := by
    rw [hn]
    exact String.toList_ofList
  have hvalue := Json.natOfDigits_decimalDigits n
  have hrun : IsRun isDigit (decimalDigits n) rest :=
    hrest.isRun (fun c hc ↦ Json.isDigit_of_mem_decimalDigits hc) (by decide)
  rw [hchars]
  cases hdigits : decimalDigits n with
  | nil => exact absurd hdigits Nat.toDigits_ne_nil
  | cons d digits =>
    rw [hdigits] at hvalue hrun
    exact .number hrun hrest.not_hasFraction (by rw [hn, hvalue])

/-- A token that is printed is a lexeme, if a space or nothing is behind it. -/
theorem Token.IsPrintable.isLexeme {u : Token} (h : u.IsPrintable) {rest : List Char}
    (hrest : SpaceNext rest) : IsLexeme u.chars u rest := by
  have hkeyword {letters : List Char} (hall : letters.all isAlphabetic = true) :
      IsRun isAlphabetic letters rest := hrest.isRun (List.all_eq_true.1 hall) (by decide)
  cases u with
  | global g => cases g <;> exact .keyword (.inl rfl) (hkeyword (by decide)) (by decide)
  | attr a => cases a <;> exact .keyword (.inl rfl) (hkeyword (by decide)) (by decide)
  | function f => cases f; exact .keyword (.inr rfl) (hkeyword (by decide)) (by decide)
  | dot | assign | comma | leftParen | rightParen => exact .punctuation (by decide)
  | number i => exact isLexeme_number h hrest
  | real x => exact h.elim
  | string s =>
    have hlexeme : IsLexeme (Token.string s).chars _ rest :=
      .string (quotes_flatMap_escape s.toList)
    rwa [String.ofList_toList] at hlexeme
  | identifier s => exact isLexeme_identifier h.1 h.2 hrest

/-- The pieces of printed tokens, with blanks before the first of them. -/
def printedPieces (blanks : List Char) : List Token → List Piece
  | [] => []
  | u :: us => ⟨blanks, u.chars, u⟩ :: printedPieces [' '] us

theorem map_token_printedPieces (blanks : List Char) (us : List Token) :
    (printedPieces blanks us).map Piece.token = us := by
  induction us generalizing blanks with
  | nil => rfl
  | cons u us ih => rw [printedPieces, List.map_cons, ih]

theorem cuts_printedPieces {blanks : List Char} (hblanks : ∀ c ∈ blanks, isBlank c = true)
    {u : Token} {us : List Token} (h : ∀ v ∈ u :: us, v.IsPrintable) :
    Cuts (printedPieces blanks (u :: us))
      (blanks ++ [' '].intercalate ((u :: us).map Token.chars)) [] := by
  have hu := h u List.mem_cons_self
  induction us generalizing blanks u with
  | nil =>
    have hlexeme : IsLexeme u.chars u [] := hu.isLexeme (by simp [SpaceNext])
    simpa [printedPieces] using Cuts.cons (p := ⟨blanks, u.chars, u⟩) hblanks hlexeme .nil
  | cons v us ih =>
    have hspace : ∀ c ∈ [' '], isBlank c = true := List.forall_mem_singleton.2 (by decide)
    have hlater := ih hspace (fun w hw ↦ h w (List.mem_cons_of_mem u hw)) (h v (by simp))
    rw [List.map_cons, List.map_cons, List.intercalate_cons_cons, ← List.map_cons,
      List.append_assoc]
    exact .cons (p := ⟨blanks, u.chars, u⟩) hblanks (hu.isLexeme (by simp [SpaceNext])) hlater

/-- **Printed tokens are read back.** -/
theorem tokenize_printTokens {us : List Token} (h : ∀ u ∈ us, u.IsPrintable) :
    ∃ ts, tokenize (printTokens us) = .ok ts ∧ words ts.list = us := by
  have htext : (printTokens us).toList = [' '].intercalate (us.map Token.chars) := by
    rw [printTokens, String.toList_intercalate]
    simp [Function.comp_def]
  have hsplits : Splits (printedPieces [] us) (printTokens us).toList [] := by
    rw [htext]
    cases us with
    | nil => exact ⟨.nil, by simp⟩
    | cons u us => exact ⟨cuts_printedPieces (List.forall_mem_nil _) h, by simp⟩
  exact ⟨_, hsplits.tokenize_eq, by rw [words_located, map_token_printedPieces]⟩

/-! ## Expressions -/

namespace Tree

/-- An assignment. -/
def isAssignment : Tree → Bool
  | .assign .. => true
  | _ => false

/-- An expression without an operand to its left. -/
def isAtom : Tree → Bool
  | .dot .. | .assign .. => false
  | _ => true

/-- How many dots a path has. -/
def dots : Tree → Nat
  | .dot left _ => left.dots + 1
  | _ => 0

mutual

/-- The tokens that spell an expression. -/
def tokens : Tree → List Token
  | .global g => [.global g]
  | .attr a => [.attr a]
  | .variable name => [.identifier name]
  | .literal (.int i) => [.number i]
  | .literal (.float x) => [.real x]
  | .literal (.string s) => [.string s]
  | .dot left right => left.tokens ++ .dot :: right.tokens
  | .assign target source => target.tokens ++ .assign :: source.tokens
  | .call f args => .function f :: .leftParen :: (argTokens args ++ [.rightParen])

/-- The tokens that spell the arguments of a call. -/
def argTokens : List Tree → List Token
  | [] => []
  | [t] => t.tokens
  | t :: u :: rest => t.tokens ++ .comma :: argTokens (u :: rest)

end

/-- The source that an expression is printed as. -/
def print (t : Tree) : String := printTokens t.tokens

mutual

/-- An expression that can be written: its names are words of letters and its literals texts and
integers that are not negative; an atom is to the right of each dot, a path to the left of each dot
and of each equals sign; and no call is without arguments. -/
def IsWritable : Tree → Prop
  | .variable name => name ≠ "" ∧ ∀ c ∈ name.toList, isAlphabetic c = true
  | .literal (.int i) => 0 ≤ i.toInt
  | .literal (.float _) => False
  | .dot left right =>
    (left.IsWritable ∧ left.isAssignment = false) ∧ right.IsWritable ∧ right.isAtom = true
  | .assign target source =>
    (target.IsWritable ∧ target.isAssignment = false) ∧ source.IsWritable
  | .call _ args => args ≠ [] ∧ AreWritable args
  | _ => True

/-- Expressions all of which can be written. -/
def AreWritable : List Tree → Prop
  | [] => True
  | t :: rest => t.IsWritable ∧ AreWritable rest

end

mutual

/-- How far below the level at which an expression runs its parts are read: an atom below the first
of its path by the dots before it, and by one more level the right side of an assignment and the
arguments of a call. -/
def levels : Tree → Nat
  | .dot left right => max left.levels (left.dots + 1 + right.levels)
  | .assign target source => max target.levels (source.levels + 1)
  | .call _ args => argLevels args
  | _ => 0

/-- How far below the level of a call its arguments are read. -/
def argLevels : List Tree → Nat
  | [] => 0
  | t :: rest => max (t.levels + 1) (argLevels rest)

end

end Tree

/-! ## What is printed is spelled -/

mutual

theorem Tree.IsWritable.isPrintable : {t : Tree} → t.IsWritable → ∀ u ∈ t.tokens, u.IsPrintable
  | .global _, _ | .attr _, _ | .literal (.string _), _ => by simp [Tree.tokens, Token.IsPrintable]
  | .variable _, h | .literal (.int _), h => by
    simpa [Tree.tokens, Token.IsPrintable, Tree.IsWritable] using h
  | .literal (.float _), h => h.elim
  | .dot _ _, h => by
    have hleft := h.1.1.isPrintable
    have hright := h.2.1.isPrintable
    simp only [Tree.tokens, List.forall_mem_append, List.forall_mem_cons]
    exact ⟨hleft, trivial, hright⟩
  | .assign _ _, h => by
    have htarget := h.1.1.isPrintable
    have hsource := h.2.isPrintable
    simp only [Tree.tokens, List.forall_mem_append, List.forall_mem_cons]
    exact ⟨htarget, trivial, hsource⟩
  | .call _ _, h => by
    have hargs := h.2.isPrintable
    simp only [Tree.tokens, List.forall_mem_append, List.forall_mem_cons]
    exact ⟨trivial, trivial, hargs, trivial, by simp⟩

theorem Tree.AreWritable.isPrintable :
    {args : List Tree} → Tree.AreWritable args → ∀ u ∈ Tree.argTokens args, u.IsPrintable
  | [], _ => by simp [Tree.argTokens]
  | [_], h => h.1.isPrintable
  | _ :: _ :: _, h => by
    have ht := h.1.isPrintable
    have hrest := h.2.isPrintable
    simp only [Tree.argTokens, List.forall_mem_append, List.forall_mem_cons]
    exact ⟨ht, trivial, hrest⟩

end

/-- The tokens of a tree spell it wherever its levels last: as an atom if it is one, as a path if
it is no assignment, and as an expression. -/
structure Tree.IsSpelled (t : Tree) : Prop where
  atom : t.isAtom = true → ∀ limit level : Int, level + t.levels ≤ limit →
    SpellsAtom limit level t.tokens t
  path : t.isAssignment = false → ∀ limit level : Int, level + t.levels ≤ limit →
    SpellsPath limit level t.tokens t.dots t
  expr : ∀ limit level : Int, level + 1 + t.levels ≤ limit → SpellsExpr limit level t.tokens t

namespace Tree.IsSpelled

variable {t left right target source : Tree}

theorem of_path (hnot : t.isAtom = false) (hpath : ∀ limit level : Int, level + t.levels ≤ limit →
    SpellsPath limit level t.tokens t.dots t) : t.IsSpelled where
  atom hatom := absurd (hnot.symm.trans hatom) Bool.false_ne_true
  path _ := hpath
  expr limit level hlevel := .path (by omega) (hpath limit (level + 1) hlevel)

theorem of_atom (hdots : t.dots = 0) (hatom : ∀ limit level : Int, level + t.levels ≤ limit →
    SpellsAtom limit level t.tokens t) : t.IsSpelled where
  atom _ := hatom
  path _ limit level hlevel := hdots ▸ .atom (hatom limit level hlevel)
  expr limit level hlevel := .path (by omega) (.atom (hatom limit (level + 1) hlevel))

theorem dot (hleft : left.IsSpelled) (hpath : left.isAssignment = false) (hright : right.IsSpelled)
    (hatom : right.isAtom = true) : (left.dot right).IsSpelled := by
  refine of_path rfl fun limit level hlevel ↦ ?_
  rw [levels] at hlevel
  have hdots := hleft.path hpath limit level (by omega)
  exact .dot hdots (by omega) (hright.atom hatom limit (level + left.dots + 1) (by omega))

theorem assign (htarget : target.IsSpelled) (hpath : target.isAssignment = false)
    (hsource : source.IsSpelled) : (Tree.assign target source).IsSpelled where
  atom hatom := absurd hatom Bool.false_ne_true
  path hassign := absurd hassign.symm Bool.false_ne_true
  expr limit level hlevel := by
    rw [levels] at hlevel
    have hdots := htarget.path hpath limit (level + 1) (by omega)
    exact .assign (by omega) hdots (hsource.expr limit (level + 1) (by omega))

end Tree.IsSpelled

mutual

theorem Tree.IsWritable.isSpelled : {t : Tree} → t.IsWritable → t.IsSpelled
  | .global _, _ | .attr _, _ | .variable _, _ | .literal (.int _), _ | .literal (.string _), _ =>
    .of_atom rfl fun _ _ _ ↦ .leaf rfl
  | .literal (.float _), h => h.elim
  | .dot _ _, h => .dot h.1.1.isSpelled h.1.2 h.2.1.isSpelled h.2.2
  | .assign _ _, h => .assign h.1.1.isSpelled h.1.2 h.2.isSpelled
  | .call _ _, h =>
    .of_atom rfl fun limit level hlevel ↦ .call (h.2.spellsArgs h.1 limit level hlevel)

theorem Tree.AreWritable.spellsArgs : {args : List Tree} → Tree.AreWritable args → args ≠ [] →
    ∀ limit level : Int, level + Tree.argLevels args ≤ limit →
    SpellsArgs limit level (Tree.argTokens args) args
  | [], _, hne, _, _, _ => absurd rfl hne
  | [_], h, _, limit, level, hlevel => by
    have ht := h.1.isSpelled
    rw [Tree.argLevels] at hlevel
    exact .last (ht.expr limit level (by omega))
  | _ :: u :: rest, h, _, limit, level, hlevel => by
    have ht := h.1.isSpelled
    have hrest := h.2.spellsArgs (List.cons_ne_nil u rest) limit level
    rw [Tree.argLevels] at hlevel
    exact .more (ht.expr limit level (by omega)) (hrest (by omega))

end

/-! ## What is spelled has the levels for it -/

mutual

theorem SpellsExpr.levels_le {limit level : Int} {us : List Token} {t : Tree} :
    SpellsExpr limit level us t → level + 1 + t.levels ≤ limit
  | .path hlevel hpath => (hpath.levels_le hlevel).1
  | .assign hlevel htarget hsource => by
    have hleft := (htarget.levels_le hlevel).1
    have hright := hsource.levels_le
    simp only [Tree.levels]
    omega

theorem SpellsPath.levels_le {limit level : Int} {us : List Token} {dots : Nat} {t : Tree}
    (hlevel : level ≤ limit) :
    SpellsPath limit level us dots t → level + t.levels ≤ limit ∧ t.dots = dots
  | .atom hatom => hatom.levels_le hlevel
  | .dot hpath hdots hatom => by
    obtain ⟨hleft, hcount⟩ := hpath.levels_le hlevel
    have hright := (hatom.levels_le hdots).1
    simp only [Tree.levels, Tree.dots]
    omega

theorem SpellsAtom.levels_le {limit level : Int} {us : List Token} {t : Tree}
    (hlevel : level ≤ limit) :
    SpellsAtom limit level us t → level + t.levels ≤ limit ∧ t.dots = 0
  | .leaf hleaf => by
    obtain ⟨hlevels, hdots⟩ : t.levels = 0 ∧ t.dots = 0 := by
      rename_i token
      cases token <;> cases hleaf <;> exact ⟨rfl, rfl⟩
    omega
  | .call hargs => ⟨hargs.levels_le hlevel, rfl⟩

theorem SpellsArgs.levels_le {limit level : Int} {us : List Token} {args : List Tree}
    (hlevel : level ≤ limit) :
    SpellsArgs limit level us args → level + Tree.argLevels args ≤ limit
  | .last harg => by
    have hbound := harg.levels_le
    simp only [Tree.argLevels]
    omega
  | .more harg hargs => by
    have hbound := harg.levels_le
    have hbounds := hargs.levels_le hlevel
    simp only [Tree.argLevels]
    omega

end

/-! ## Printing and parsing -/

/-- Tokens that spell a tree at some depth are read as the tree, or else are too deep. -/
theorem SpellsExpr.ofTokens_eq {limit : Int} {ts : Tokens} {t : Tree}
    (h : SpellsExpr limit 0 (words ts.list) t) :
    ofTokens ts = .ok t ∨ ∃ offset, ofTokens ts = .error (.tooDeep maxDepth offset) := by
  have hread := h.reads ts.finish [] rfl (by simp) (by simp)
  rw [List.append_nil] at hread
  rw [ofTokens]
  obtain hok | ⟨-, offset, herror⟩ := hread
  · rw [hok]
    simp
  · rw [herror]
    exact .inr ⟨offset, rfl⟩

/-- **What is printed is parsed.** The source that an expression is printed as is parsed as this
expression, if the readers have levels for it, and is too deep for them if they do not. -/
theorem parse_print {t : Tree} (h : t.IsWritable) :
    (t.levels < maxDepth → parse t.print = .ok t) ∧
      (maxDepth ≤ t.levels → ∃ offset, parse t.print = .error (.tooDeep maxDepth offset)) := by
  obtain ⟨ts, htokens, hwords⟩ := tokenize_printTokens h.isPrintable
  have hspells {limit : Int} (hlevels : 0 + 1 + t.levels ≤ limit) :
      SpellsExpr limit 0 (words ts.list) t := hwords ▸ h.isSpelled.expr limit 0 hlevels
  rw [parse, Tree.print, htokens]
  refine ⟨fun hlt ↦ ofTokens_eq_ok_iff.2 (hspells (by omega)), fun hle ↦ ?_⟩
  refine (hspells (Int.le_refl _)).ofTokens_eq.resolve_left fun hok ↦ ?_
  have hbound := (ofTokens_eq_ok_iff.1 hok).levels_le
  omega

/-- An assignment of a call whose second argument is a text of a quote and a backslash. -/
def quoteSought : Tree :=
  .assign (.dot (.global .env) (.variable "found"))
    (.call .contain [.dot (.dot (.global .res) (.attr .body)) (.attr .str),
      .literal (.string "\"\\")])

/-- The quote and the backslash are printed with a backslash before each. -/
theorem parse_print_quoteSought :
    quoteSought.IsWritable ∧ quoteSought.levels < maxDepth ∧
      quoteSought.print = "$env . found = @contain ( $res . $body . $str , \"\\\"\\\\\" )" ∧
      parse "$env . found = @contain ( $res . $body . $str , \"\\\"\\\\\" )" = .ok quoteSought := by
  have hwritable : quoteSought.IsWritable := by
    simp [quoteSought, Tree.IsWritable, Tree.AreWritable, Tree.isAssignment, Tree.isAtom]
    decide +kernel
  have hlevels : quoteSought.levels < maxDepth := by decide
  have hprint : quoteSought.print =
      "$env . found = @contain ( $res . $body . $str , \"\\\"\\\\\" )" := by decide +kernel
  exact ⟨hwritable, hlevels, hprint, hprint ▸ (parse_print hwritable).1 hlevels⟩

end CallCheck.Expr

import CallCheck.Proofs.Expr.Cutting
import CallCheck.Proofs.Expr.Printing
import CallCheck.Proofs.Expr.Stopping
import Mathlib.Data.List.Nodup

/-!
# Tokens out of place

Whether tokens spell an expression depends on their kinds only, and a kind of token that is no
expression by itself has one token (`SpellsExpr.of_kinds`). So it can be said by kinds which token
is out of place.

## Main statement

`parse_error_place`: an error of parsing is at a token or at the end. The tokens before it begin an
expression, however deep; if the error is not about depth, no expression begins with these tokens
and one more of the kind that was found.

## Outline

That no expression goes on with the token that is out of place does not follow from what was read
before it. An expression that did would be read (`SpellsExpr.ofTokens_eq`), but parsing stops in it
where it stopped before (`ofTokens_settled`).
-/

namespace CallCheck.Expr

open Text

variable {before rest : List Located} {us : List Token} {t : Tree}

/-! ## Kinds of tokens -/

/-- The kinds of tokens. -/
def kinds (us : List Token) : List String := us.map Token.kind

/-- What messages call the end of a source. -/
def endKind : String := nextKind []

/-- Kinds of tokens that an expression has, at some depth, and then the end. -/
def IsSentence (ks : List String) : Prop :=
  ∃ limit us t, SpellsExpr limit 0 us t ∧ ks = kinds us ++ [endKind]

/-- Kinds of tokens with which some expression begins. -/
def IsBeginning (ks : List String) : Prop := ∃ more, IsSentence (ks ++ more)

/-- The tokens that are not expressions by themselves. -/
def marks : List Token :=
  [.function .contain, .dot, .assign, .comma, .leftParen, .rightParen]

theorem mem_marks_of_leaf? {u : Token} (h : u.leaf? = none) : u ∈ marks := by
  cases u <;> cases h
  case function f => cases f; decide
  all_goals decide

theorem kind_ne_of_leaf? {u : Token} (h : u.leaf? = some t) : u.kind ∉ endKind :: kinds marks := by
  cases u with
  | global g => cases g <;> decide
  | attr a => cases a <;> decide
  | number | real | string | identifier =>
    simp only [Token.kind]
    decide
  | _ => cases h

theorem nodup_kinds_marks : (endKind :: kinds marks).Nodup := by decide

theorem Token.kind_ne_endKind (u : Token) : u.kind ≠ endKind := by
  cases h : u.leaf? with
  | some t => exact fun heq ↦ kind_ne_of_leaf? h (heq ▸ List.mem_cons_self)
  | none =>
    intro heq
    have hmem : u.kind ∈ kinds marks := List.mem_map_of_mem (mem_marks_of_leaf? h)
    exact (List.nodup_cons.1 nodup_kinds_marks).1 (heq ▸ hmem)

theorem Token.eq_of_kind_eq {u u' : Token} (hleaf : u.leaf? = none) (h : u'.kind = u.kind) :
    u' = u := by
  have hmem : u.kind ∈ kinds marks := List.mem_map_of_mem (mem_marks_of_leaf? hleaf)
  cases hleaf' : u'.leaf? with
  | some t => exact absurd (List.mem_cons_of_mem _ (h ▸ hmem)) (kind_ne_of_leaf? hleaf')
  | none =>
    have hnodup : (kinds marks).Nodup := (List.nodup_cons.1 nodup_kinds_marks).2
    exact List.inj_on_of_nodup_map hnodup (mem_marks_of_leaf? hleaf') (mem_marks_of_leaf? hleaf) h

theorem Token.leaf?_of_kind_eq {u u' : Token} (hleaf : u.leaf? = some t)
    (h : u'.kind = u.kind) : ∃ t', u'.leaf? = some t' := by
  cases h' : u'.leaf? with
  | some t' => exact ⟨t', rfl⟩
  | none =>
    rw [Token.eq_of_kind_eq h' h.symm, h'] at hleaf
    cases hleaf

theorem exists_of_kinds_eq {us₁ us₂ vs : List Token} {mark : Token} (hmark : mark.leaf? = none)
    (h : kinds vs = kinds (us₁ ++ mark :: us₂)) :
    ∃ vs₁ vs₂, vs = vs₁ ++ mark :: vs₂ ∧ kinds vs₁ = kinds us₁ ∧ kinds vs₂ = kinds us₂ := by
  rw [kinds, kinds, List.map_append, List.map_cons] at h
  obtain ⟨vs₁, vs', rfl, h₁, h'⟩ := List.map_eq_append_iff.1 h
  obtain ⟨u, vs₂, rfl, hu, h₂⟩ := List.map_eq_cons_iff.1 h'
  rw [Token.eq_of_kind_eq hmark hu]
  exact ⟨vs₁, vs₂, rfl, h₁, h₂⟩

mutual

theorem SpellsExpr.of_kinds {limit level : Int} {us vs : List Token} {t : Tree}
    (hkinds : kinds vs = kinds us) : SpellsExpr limit level us t →
    ∃ t', SpellsExpr limit level vs t'
  | .path hlevel hpath =>
    have ⟨_, hpath'⟩ := hpath.of_kinds hkinds
    ⟨_, .path hlevel hpath'⟩
  | .assign hlevel htarget hsource => by
    obtain ⟨vs₁, vs₂, rfl, h₁, h₂⟩ := exists_of_kinds_eq rfl hkinds
    obtain ⟨_, htarget'⟩ := htarget.of_kinds h₁
    obtain ⟨_, hsource'⟩ := hsource.of_kinds h₂
    exact ⟨_, .assign hlevel htarget' hsource'⟩

theorem SpellsPath.of_kinds {limit level : Int} {us vs : List Token} {dots : Nat} {t : Tree}
    (hkinds : kinds vs = kinds us) : SpellsPath limit level us dots t →
    ∃ t', SpellsPath limit level vs dots t'
  | .atom hatom =>
    have ⟨_, hatom'⟩ := hatom.of_kinds hkinds
    ⟨_, .atom hatom'⟩
  | .dot hpath hlevel hatom => by
    obtain ⟨vs₁, vs₂, rfl, h₁, h₂⟩ := exists_of_kinds_eq rfl hkinds
    obtain ⟨_, hpath'⟩ := hpath.of_kinds h₁
    obtain ⟨_, hatom'⟩ := hatom.of_kinds h₂
    exact ⟨_, .dot hpath' hlevel hatom'⟩

theorem SpellsAtom.of_kinds {limit level : Int} {us vs : List Token} {t : Tree}
    (hkinds : kinds vs = kinds us) : SpellsAtom limit level us t →
    ∃ t', SpellsAtom limit level vs t'
  | .leaf hleaf => by
    obtain ⟨u, rfl, hu⟩ := List.map_eq_singleton_iff.1 hkinds
    obtain ⟨t', ht'⟩ := Token.leaf?_of_kind_eq hleaf hu
    exact ⟨t', .leaf ht'⟩
  | @SpellsAtom.call _ _ ts f args hargs => by
    obtain ⟨u, vs', rfl, hu, h'⟩ := List.map_eq_cons_iff.1 hkinds
    obtain ⟨u', vs'', rfl, hu', h''⟩ := List.map_eq_cons_iff.1 h'
    obtain ⟨vs₁, vs₂, rfl, h₁, h₂⟩ := exists_of_kinds_eq rfl h''
    obtain rfl := List.map_eq_nil_iff.1 h₂
    rw [Token.eq_of_kind_eq rfl hu, Token.eq_of_kind_eq rfl hu']
    obtain ⟨_, hargs'⟩ := hargs.of_kinds h₁
    exact ⟨_, .call hargs'⟩

theorem SpellsArgs.of_kinds {limit level : Int} {us vs : List Token} {args : List Tree}
    (hkinds : kinds vs = kinds us) : SpellsArgs limit level us args →
    ∃ args', SpellsArgs limit level vs args'
  | .last harg =>
    have ⟨_, harg'⟩ := harg.of_kinds hkinds
    ⟨_, .last harg'⟩
  | .more harg hargs => by
    obtain ⟨vs₁, vs₂, rfl, h₁, h₂⟩ := exists_of_kinds_eq rfl hkinds
    obtain ⟨_, harg'⟩ := harg.of_kinds h₁
    obtain ⟨_, hargs'⟩ := hargs.of_kinds h₂
    exact ⟨_, .more harg' hargs'⟩

end

/-! ## Beginnings of expressions -/

theorem endKind_notMem_kinds (us : List Token) : endKind ∉ kinds us := by
  intro h
  obtain ⟨u, -, hu⟩ := List.mem_map.1 h
  exact u.kind_ne_endKind hu

theorem nextKind_eq_endKind (h : nextKind rest = endKind) : rest = [] := by
  cases rest with
  | nil => rfl
  | cons r rest => exact absurd h r.token.kind_ne_endKind

/-- Kinds of tokens and the kind of what comes next begin an expression only if some tokens that
start like that spell one. -/
theorem exists_rest_of_isBeginning (h : IsBeginning (kinds (words before) ++ [nextKind rest])) :
    ∃ rest' limit t, SameNext rest rest' ∧ SpellsExpr limit 0 (words (before ++ rest')) t := by
  obtain ⟨more, limit, us, t, hspells, heq⟩ := h
  -- if the end comes next, the tokens before it are all
  have hend (hus : kinds (words before) = kinds us) (hnext : nextKind rest = endKind) :
      ∃ rest' limit t, SameNext rest rest' ∧ SpellsExpr limit 0 (words (before ++ rest')) t := by
    obtain ⟨t', ht'⟩ := hspells.of_kinds hus
    refine ⟨[], limit, t', ?_, by rwa [List.append_nil]⟩
    rw [nextKind_eq_endKind hnext, SameNext]
  rw [List.append_assoc, List.singleton_append] at heq
  obtain ⟨ks, hus, hnext⟩ | ⟨ks, hbefore, hnext⟩ := List.append_eq_append_iff.1 heq
  · cases ks with
    | nil => exact hend (by rw [hus, List.append_nil]) (List.cons.inj hnext).1
    | cons k ks =>
      obtain rfl := (List.cons.inj hnext).1
      cases rest with
      | nil => exact absurd (hus ▸ by simp [endKind]) (endKind_notMem_kinds us)
      | cons r rest =>
        obtain ⟨us₁, us', rfl, h₁, h'⟩ := List.map_eq_append_iff.1 hus
        obtain ⟨u, us₂, rfl, hu, h₂⟩ := List.map_eq_cons_iff.1 h'
        have hwords : words (us₂.map fun u ↦ ⟨u, 0⟩) = us₂ := by simp [words, Function.comp_def]
        have hkinds : kinds (words (before ++ r :: us₂.map fun u ↦ ⟨u, 0⟩)) =
            kinds (us₁ ++ u :: us₂) := by
          rw [words_append, words_cons, hwords, kinds, kinds, List.map_append, List.map_append,
            h₁, List.map_cons, List.map_cons, hu]
          rfl
        obtain ⟨t', ht'⟩ := hspells.of_kinds hkinds
        exact ⟨r :: us₂.map fun u ↦ ⟨u, 0⟩, limit, t', rfl, ht'⟩
  · cases ks with
    | nil => exact hend (by rw [hbefore, List.append_nil]) (List.cons.inj hnext).1.symm
    | cons k ks => simp at hnext

/-- Tokens before which a reader stops for what the next one is do not go on with its kind. -/
theorem Halt.not_isBeginning {expected : String}
    (h : ∀ finish rest', SameNext rest rest' → ofTokens ⟨before ++ rest', finish⟩ =
      .error (Halt.error finish rest' (.unexpected expected))) :
    ¬ IsBeginning (kinds (words before) ++ [nextKind rest]) := by
  intro hbeginning
  obtain ⟨rest', limit, t, hnext, hspells⟩ := exists_rest_of_isBeginning hbeginning
  have hread : ofTokens ⟨before ++ rest', 0⟩ = .ok t ∨
      ∃ offset, ofTokens ⟨before ++ rest', 0⟩ = .error (.tooDeep maxDepth offset) :=
    SpellsExpr.ofTokens_eq hspells
  rw [h 0 rest' hnext] at hread
  obtain hok | ⟨offset, herror⟩ := hread
  · cases hok
  · cases herror

/-! ## Places -/

/-- Tokens divided at an offset: those before it, and the next one, which is there, with the rest.
The end of the source comes next if no token does. -/
structure Tokens.DividesAt (ts : Tokens) (offset : Nat) (before rest : List Located) : Prop where
  list_eq : ts.list = before ++ rest
  offset_eq : offset = nextOffset ts.finish rest
  before_lt : ∀ t ∈ before, t.offset < offset
  le_rest : ∀ t ∈ rest, offset ≤ t.offset

theorem Cuts.offset_mem {ps : List Piece} {text last : List Char} (h : Cuts ps text last)
    (offset : Nat) :
    ∀ t ∈ located offset ps, offset ≤ t.offset ∧ t.offset < offset + Utf8.width (chars ps) := by
  induction h generalizing offset with
  | nil => nofun
  | @cons p ps rest last _ hlexeme _ ih =>
    obtain ⟨c, cs, htext, -⟩ := hlexeme.exists_cons
    have hpos : 0 < Utf8.width p.text := by
      rw [htext, Utf8.width_cons]
      exact Nat.add_pos_left c.utf8Size_pos _
    intro t ht
    rw [chars_cons, Utf8.width_append, Utf8.width_append]
    rcases List.mem_cons.1 ht with rfl | ht
    · dsimp only
      omega
    · have hmem := ih _ t ht
      rw [Utf8.width_append] at hmem
      omega

theorem Cuts.pairwise_offset {ps : List Piece} {text last : List Char} (h : Cuts ps text last)
    (offset : Nat) : (located offset ps).Pairwise fun t u ↦ t.offset < u.offset := by
  induction h generalizing offset with
  | nil => exact .nil
  | @cons p ps rest last _ hlexeme hcuts ih =>
    obtain ⟨c, cs, htext, -⟩ := hlexeme.exists_cons
    have hpos : 0 < Utf8.width p.text := by
      rw [htext, Utf8.width_cons]
      exact Nat.add_pos_left c.utf8Size_pos _
    refine List.pairwise_cons.2 ⟨fun u hu ↦ ?_, ih _⟩
    have hle := (hcuts.offset_mem _ u hu).1
    rw [Utf8.width_append] at hle
    dsimp only
    omega

theorem dividesAt_of_tokenize {source : String} {ts : Tokens} (h : tokenize source = .ok ts)
    (heq : ts.list = before ++ rest) :
    ts.DividesAt (nextOffset ts.finish rest) before rest := by
  obtain ⟨ps, blanks, hsplits, rfl⟩ := ((tokenize_exact source).1 ts).1 h
  have heq' : located 0 ps = before ++ rest := heq
  have hlt : ∀ t ∈ before ++ rest, t.offset < source.utf8ByteSize := by
    intro t ht
    have hmem := hsplits.cuts.offset_mem 0 t (heq' ▸ ht)
    have hwidth := congrArg Utf8.width hsplits.cuts.eq_append
    rw [Utf8.width_append, width_eq_utf8ByteSize, String.ofList_toList] at hwidth
    omega
  have hpairwise := hsplits.cuts.pairwise_offset 0
  rw [heq', List.pairwise_append] at hpairwise
  obtain ⟨-, hrest, hbetween⟩ := hpairwise
  refine ⟨heq, rfl, fun t ht ↦ ?_, fun t ht ↦ ?_⟩
  · cases rest with
    | nil => exact hlt t (List.mem_append_left _ ht)
    | cons r rest => exact hbetween t ht r List.mem_cons_self
  · cases rest with
    | nil => cases ht
    | cons r rest =>
      rcases List.mem_cons.1 ht with rfl | ht
      · exact Nat.le_refl _
      · exact Nat.le_of_lt ((List.pairwise_cons.1 hrest).1 t ht)

/-- **Parsing stops at the first token that is out of place.** An error about a token is at a token
or at the end, and names its kind: the tokens before it begin an expression, however deep, and no
expression begins with tokens of their kinds and one of the kind that was found. An error about
depth is at such a place too, the tokens before it begin an expression; and there is no other
error. -/
theorem parse_error_place {source : String} {ts : Tokens} (h : tokenize source = .ok ts) :
    (∀ expected found offset, parse source = .error (.unexpectedToken expected found offset) →
      ∃ before rest, ts.DividesAt offset before rest ∧ found = nextKind rest ∧
        BeginsExpr 0 (words before) ∧ ¬ IsBeginning (kinds (words before) ++ [found])) ∧
    (∀ limit offset, parse source = .error (.tooDeep limit offset) →
      ∃ before rest, ts.DividesAt offset before rest ∧ limit = maxDepth ∧
        BeginsExpr 0 (words before)) ∧
    ∀ e, parse source = .error e → (∃ expected found offset,
      e = .unexpectedToken expected found offset) ∨ ∃ limit offset, e = .tooDeep limit offset := by
  have hparse : parse source = ofTokens ts := by
    rw [parse, h]
  rw [hparse]
  refine ⟨fun expected found offset herror ↦ ?_, fun limit offset herror ↦ ?_, fun e herror ↦ ?_⟩
  all_goals obtain ⟨before, rest, halt, heq, he, hbegins, hsettled⟩ := ofTokens_settled herror
  · cases halt with
    | tooDeep => cases he
    | unexpected expected' =>
      cases he
      exact ⟨before, rest, dividesAt_of_tokenize h heq, rfl, hbegins,
        Halt.not_isBeginning hsettled⟩
  · cases halt with
    | unexpected expected' => cases he
    | tooDeep =>
      cases he
      exact ⟨before, rest, dividesAt_of_tokenize h heq, rfl, hbegins⟩
  · cases halt with
    | unexpected expected => exact .inl ⟨_, _, _, he⟩
    | tooDeep => exact .inr ⟨_, _, he⟩

/-- A dot at the end: the end is what is out of place. -/
theorem parse_error_place_end :
    tokenize "\"a\"." = .ok ⟨[⟨.string "a", 0⟩, ⟨.dot, 3⟩], 4⟩ ∧
      parse "\"a\"." = .error (.unexpectedToken
        "a global, attribute, identifier, literal or call" "end of input" 4) ∧
      ∃ before rest, Tokens.DividesAt ⟨[⟨.string "a", 0⟩, ⟨.dot, 3⟩], 4⟩ 4 before rest ∧
        BeginsExpr 0 (words before) ∧
        ¬ IsBeginning (kinds (words before) ++ ["end of input"]) := by
  have htokens : tokenize "\"a\"." = .ok ⟨[⟨.string "a", 0⟩, ⟨.dot, 3⟩], 4⟩ := by
    simp [tokenize, scan_nil, scan_cons, lexeme, quotedText, Text.isBlank, Tokens.behind,
      Except.map]
    decide
  have hparse : parse "\"a\"." = .error (.unexpectedToken
      "a global, attribute, identifier, literal or call" "end of input" 4) := by
    have hfirst : parseAtom 4 (0 + 1) [⟨.string "a", 0⟩, ⟨.dot, 3⟩] =
        .ok ⟨.literal (.string "a"), 1, 0 + 1⟩ := parseAtom_leaf rfl
    have hsecond : parseAtom 4 (0 + 1 + 1) [] = .error (unexpected 4
        "a global, attribute, identifier, literal or call" []) :=
      parseAtom_noAtom (fun _ ht ↦ by cases ht) fun _ _ ht ↦ by cases ht
    have hdots : parseDots 4 (0 + 1) 0 (.literal (.string "a")) [⟨.dot, 3⟩] =
        .error (unexpected 4 "a global, attribute, identifier, literal or call" []) := by
      rw [parseDots_dot (by decide), hsecond]
      rfl
    have hexpr : parseExpr 4 0 [⟨.string "a", 0⟩, ⟨.dot, 3⟩] =
        .error (unexpected 4 "a global, attribute, identifier, literal or call" []) := by
      rw [parseExpr_eq (by decide), parsePath_eq, hfirst]
      simp only [Except.bind, List.drop_succ_cons, List.drop_zero, hdots]
      rfl
    simp only [parse, htokens, ofTokens, hexpr]
    rfl
  obtain ⟨before, rest, hdivides, -, hbegins, hnot⟩ :=
    (parse_error_place htokens).1 _ _ _ hparse
  exact ⟨htokens, hparse, before, rest, hdivides, hbegins, hnot⟩

end CallCheck.Expr

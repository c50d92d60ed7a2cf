import CallCheck.Proofs.Except
import CallCheck.Proofs.Expr.Scanning

/-!
# Parsing is exact

The readers of `CallCheck.Expr.Parse` accept exactly what the grammar spells within the deepest
level, and give the one tree that the tokens spell.

## The two directions

Soundness follows the readers, and completeness the rules of the grammar; both recurse on the
number of tokens, with one statement for each reader. The grammar builds a path from the left and
the readers extend it dot by dot, so the statements about paths speak of a path that has been read
so far: `parseDots_sound` extends it, and `SpellsPath.reads` says that reading it is as good as
standing behind it with all of its dots counted.

## Spellings that are too deep

Completeness is stated for a grammar with any limit. If the limit lies deeper than the readers go,
they may stop with the error that the tokens are too deep, and never with any other. That is why a
tree that has been read is the only one that the tokens spell, however deep one may go.
-/

namespace CallCheck.Expr

variable {finish : Nat} {level : Int} {ts : List Located}

/-- A reading after a number of tokens more. -/
def Reading.after {α : Type} (n : Nat) (r : Reading α) : Reading α :=
  { r with taken := n + r.taken }

/-! ## Results in a row -/

theorem bind_eq_ok_iff {ε α β : Type} {x : Except ε α} {f : α → Except ε β} {b : β} :
    x.bind f = .ok b ↔ ∃ a, x = .ok a ∧ f a = .ok b := CallCheck.bind_eq_ok_iff

/-! ## One step of each reader -/

theorem parseExpr_eq (h : level + 1 ≤ maxDepth) :
    parseExpr finish level ts = (parsePath finish (level + 1) ts).bind fun p ↦
      match ts.drop p.taken with
      | ⟨.assign, _⟩ :: rest => (parseExpr finish p.level rest).map fun r ↦
          ⟨.assign p.value r.value, p.taken + 1 + r.taken, r.level - 1⟩
      | _ => .ok { p with level := p.level - 1 } := by
  rw [parseExpr, if_neg (by omega)]
  cases parsePath finish (level + 1) ts with
  | error e => rfl
  | ok p =>
    simp only [Except.bind]
    split
    · rename_i hdrop
      simp only [hdrop]
      split <;> rename_i hright <;> simp only [hright, Except.map]
    · rename_i hdrop
      split
      · rename_i heq
        exact absurd heq (hdrop _ _)
      · rfl

theorem parseExpr_tooDeep (h : maxDepth < level + 1) :
    parseExpr finish level ts = .error (tooDeep finish ts) := by
  rw [parseExpr, if_pos h]

theorem parsePath_eq :
    parsePath finish level ts = (parseAtom finish level ts).bind fun a ↦
      (parseDots finish a.level 0 a.value (ts.drop a.taken)).map (Reading.after a.taken) := by
  rw [parsePath]
  cases parseAtom finish level ts with
  | error e => rfl
  | ok a =>
    simp only [Except.bind]
    cases parseDots finish a.level 0 a.value (ts.drop a.taken) <;> rfl

theorem parseDots_dot {dots : Nat} {path : Tree} {offset : Nat} (h : level + 1 ≤ maxDepth) :
    parseDots finish level dots path (⟨.dot, offset⟩ :: ts) =
      (parseAtom finish (level + 1) ts).bind fun a ↦
        (parseDots finish a.level (dots + 1) (.dot path a.value) (ts.drop a.taken)).map
          (Reading.after (1 + a.taken)) := by
  rw [parseDots, if_neg (by omega)]
  cases parseAtom finish (level + 1) ts with
  | error e => rfl
  | ok a =>
    simp only [Except.bind]
    cases parseDots finish a.level (dots + 1) (.dot path a.value) (ts.drop a.taken) <;> rfl

theorem parseDots_tooDeep {dots : Nat} {path : Tree} {offset : Nat} (h : maxDepth < level + 1) :
    parseDots finish level dots path (⟨.dot, offset⟩ :: ts) = .error (tooDeep finish ts) := by
  rw [parseDots, if_pos h]

theorem parseDots_stop {dots : Nat} {path : Tree} (h : ∀ t ∈ ts.head?, t.token ≠ .dot) :
    parseDots finish level dots path ts = .ok ⟨path, 0, level - dots⟩ := by
  rw [parseDots.eq_def]
  split
  · simp at h
  · rfl

theorem parseAtom_leaf {t : Located} {tree : Tree} (h : t.token.leaf? = some tree) :
    parseAtom finish level (t :: ts) = .ok ⟨tree, 1, level⟩ := by
  obtain ⟨token, offset⟩ := t
  cases token <;> simp only [Token.leaf?, Option.some.injEq, reduceCtorEq] at h
  all_goals
    subst h
    rw [parseAtom]

theorem parseAtom_call {f : Function} {offset offset' : Nat} :
    parseAtom finish level (⟨.function f, offset⟩ :: ⟨.leftParen, offset'⟩ :: ts) =
      (parseArgs finish level ts).map fun r ↦ ⟨.call f r.value, r.taken + 2, r.level⟩ := by
  rw [parseAtom]
  cases parseArgs finish level ts <;> rfl

theorem parseArgs_eq :
    parseArgs finish level ts = (parseExpr finish level ts).bind fun a ↦
      match ts.drop a.taken with
      | ⟨.comma, _⟩ :: rest => (parseArgs finish a.level rest).map fun r ↦
          ⟨a.value :: r.value, a.taken + 1 + r.taken, r.level⟩
      | ⟨.rightParen, _⟩ :: _ => .ok ⟨[a.value], a.taken + 1, a.level⟩
      | rest => .error (unexpected finish "`,` or `)`" rest) := by
  rw [parseArgs]
  cases parseExpr finish level ts with
  | error e => rfl
  | ok a =>
    simp only [Except.bind]
    split
    · rename_i hdrop
      simp only [hdrop]
      split <;> rename_i hargs <;> simp only [hargs, Except.map]
    · rename_i hdrop
      simp only [hdrop]
    · rename_i hcomma hparen
      split
      · rename_i heq
        exact absurd heq (hcomma _ _)
      · rename_i heq
        exact absurd heq (hparen _ _)
      · rfl

theorem parseAtom_eq_ok {r : Reading Tree} (h : parseAtom finish level ts = .ok r) :
    (∃ t rest tree, ts = t :: rest ∧ t.token.leaf? = some tree ∧ r = ⟨tree, 1, level⟩) ∨
      ∃ f o o' rest args n l, ts = ⟨.function f, o⟩ :: ⟨.leftParen, o'⟩ :: rest ∧
        parseArgs finish level rest = .ok ⟨args, n, l⟩ ∧ r = ⟨.call f args, n + 2, l⟩ := by
  rw [parseAtom.eq_def] at h
  split at h
  case h_7 f o o' rest =>
    split at h
    · cases h
    · rename_i args n l hargs
      cases h
      exact Or.inr ⟨f, o, o', rest, args, n, l, rfl, hargs, rfl⟩
  all_goals
    cases h
    try exact Or.inl ⟨_, _, _, rfl, rfl, rfl⟩

/-! ## Soundness -/

/-- What a reader took from the tokens spells what it read, the counter is back at the level at
which the reader was entered, and no more was taken than there is. -/
structure Reading.IsSound {α : Type} (Spells : List Token → α → Prop) (level : Int)
    (ts : List Located) (r : Reading α) : Prop where
  spells : Spells (words (ts.take r.taken)) r.value
  level_eq : r.level = level
  taken_le : r.taken ≤ ts.length

theorem take_succ_add_of_drop_eq_cons {n : Nat} {t : Located} {rest : List Located}
    (h : ts.drop n = t :: rest) (m : Nat) :
    ts.take (n + 1 + m) = ts.take n ++ t :: rest.take m := by
  rw [Nat.add_assoc, List.take_add, h, Nat.add_comm 1 m, List.take_succ_cons]

theorem length_of_drop_eq_cons {n : Nat} {t : Located} {rest : List Located}
    (h : ts.drop n = t :: rest) : n + 1 + rest.length = ts.length := by
  have hlen := congrArg List.length h
  rw [List.length_drop, List.length_cons] at hlen
  omega

mutual

theorem parseExpr_sound {finish : Nat} {level : Int} {ts : List Located} {r : Reading Tree}
    (h : parseExpr finish level ts = .ok r) :
    r.IsSound (SpellsExpr maxDepth level) level ts := by
  by_cases hlevel : level + 1 ≤ maxDepth
  · rw [parseExpr_eq hlevel, bind_eq_ok_iff] at h
    obtain ⟨p, hpath, h⟩ := h
    obtain ⟨⟨dots, hspells⟩, hl, hn⟩ := parsePath_sound hpath
    split at h
    · rename_i offset rest hdrop
      obtain ⟨q, hright, rfl⟩ := map_eq_ok_iff.1 h
      have hlen := length_of_drop_eq_cons hdrop
      obtain ⟨hsource, hl', hm⟩ := parseExpr_sound hright
      rw [hl] at hsource hl'
      refine ⟨?_, by simp only; omega, by simp only; omega⟩
      rw [take_succ_add_of_drop_eq_cons hdrop, words_append, words_cons]
      exact .assign hlevel hspells hsource
    · obtain rfl := Except.ok.inj h
      exact ⟨.path hlevel hspells, by simp only; omega, hn⟩
  · rw [parseExpr_tooDeep (by omega)] at h
    cases h
termination_by 5 * ts.length + 3

theorem parsePath_sound {finish : Nat} {level : Int} {ts : List Located} {r : Reading Tree}
    (h : parsePath finish level ts = .ok r) :
    r.IsSound (fun us t ↦ ∃ dots, SpellsPath maxDepth level us dots t) level ts := by
  rw [parsePath_eq, bind_eq_ok_iff] at h
  obtain ⟨a, hatom, h⟩ := h
  obtain ⟨q, hdots, rfl⟩ := map_eq_ok_iff.1 h
  obtain ⟨hfirst, hl, hn⟩ := parseAtom_sound hatom
  -- The first atom is a path by itself, with no dots counted yet.
  rw [hl, ← Int.add_zero level] at hdots
  have hpath : SpellsPath maxDepth level _ 0 a.value := .atom hfirst
  obtain ⟨⟨dots, hspells⟩, hl', hm⟩ := parseDots_sound hpath hdots
  rw [List.length_drop] at hm
  refine ⟨⟨dots, ?_⟩, hl', by simp only [Reading.after]; omega⟩
  rwa [Reading.after, List.take_add, words_append]
termination_by 5 * ts.length + 2

theorem parseDots_sound {finish : Nat} {level : Int} {dots : Nat} {path : Tree}
    {us : List Token} {ts : List Located} {r : Reading Tree}
    (hpath : SpellsPath maxDepth level us dots path)
    (h : parseDots finish (level + dots) dots path ts = .ok r) :
    r.IsSound (fun vs t ↦ ∃ dots, SpellsPath maxDepth level (us ++ vs) dots t) level ts := by
  by_cases hdot : ∃ offset rest, ts = ⟨.dot, offset⟩ :: rest
  · obtain ⟨offset, rest, rfl⟩ := hdot
    by_cases hlevel : level + dots + 1 ≤ maxDepth
    · rw [parseDots_dot hlevel, bind_eq_ok_iff] at h
      obtain ⟨a, hatom, h⟩ := h
      obtain ⟨q, hdots, rfl⟩ := map_eq_ok_iff.1 h
      obtain ⟨hright, hl, hn⟩ := parseAtom_sound hatom
      rw [hl, Int.add_assoc, ← Int.natCast_succ] at hdots
      obtain ⟨⟨dots', hspells⟩, hl', hm⟩ := parseDots_sound (.dot hpath hlevel hright) hdots
      rw [List.length_drop] at hm
      refine ⟨⟨dots', ?_⟩, hl', by simp only [Reading.after, List.length_cons]; omega⟩
      rw [List.append_assoc, List.cons_append, ← words_append, ← List.take_add] at hspells
      rwa [Reading.after, Nat.add_assoc, Nat.add_comm 1, List.take_succ_cons, words_cons]
    · rw [parseDots_tooDeep (by omega)] at h
      cases h
  · have hstop : ∀ t ∈ ts.head?, t.token ≠ .dot := by
      rintro ⟨token, offset⟩ ht rfl
      obtain ⟨rest, rfl⟩ := List.head?_eq_some_iff.1 ht
      exact hdot ⟨offset, rest, rfl⟩
    rw [parseDots_stop hstop] at h
    obtain rfl := Except.ok.inj h
    exact ⟨⟨dots, by simpa using hpath⟩, by simp only; omega, Nat.zero_le _⟩
termination_by 5 * ts.length + 1

theorem parseAtom_sound {finish : Nat} {level : Int} {ts : List Located} {r : Reading Tree}
    (h : parseAtom finish level ts = .ok r) :
    r.IsSound (SpellsAtom maxDepth level) level ts := by
  obtain ⟨t, rest, tree, rfl, hleaf, rfl⟩ | ⟨f, o, o', rest, args, n, l, rfl, hargs, rfl⟩ :=
    parseAtom_eq_ok h
  · exact ⟨by simpa using .leaf hleaf, rfl, by simp⟩
  · obtain ⟨⟨us, hus, hspells⟩, hl, hn⟩ := parseArgs_sound hargs
    simp only at hus hn hl
    refine ⟨?_, hl, by simp only [List.length_cons]; omega⟩
    simp only [List.take_succ_cons, words_cons, hus]
    exact .call hspells
termination_by 5 * ts.length

theorem parseArgs_sound {finish : Nat} {level : Int} {ts : List Located}
    {r : Reading (List Tree)} (h : parseArgs finish level ts = .ok r) :
    r.IsSound (fun vs args ↦ ∃ us, vs = us ++ [.rightParen] ∧ SpellsArgs maxDepth level us args)
      level ts := by
  rw [parseArgs_eq, bind_eq_ok_iff] at h
  obtain ⟨a, harg, h⟩ := h
  obtain ⟨hspells, hl, -⟩ := parseExpr_sound harg
  split at h
  · rename_i offset rest hdrop
    obtain ⟨q, hargs, rfl⟩ := map_eq_ok_iff.1 h
    have hlen := length_of_drop_eq_cons hdrop
    obtain ⟨⟨us, hus, hmore⟩, hl', hm⟩ := parseArgs_sound hargs
    rw [hl] at hmore hl'
    refine ⟨⟨_, ?_, .more hspells hmore⟩, hl', by simp only; omega⟩
    rw [take_succ_add_of_drop_eq_cons hdrop, words_append, words_cons, hus, List.append_assoc,
      List.cons_append]
  · rename_i offset rest hdrop
    obtain rfl := Except.ok.inj h
    have hlen := length_of_drop_eq_cons hdrop
    refine ⟨⟨_, ?_, .last hspells⟩, hl, by simp only; omega⟩
    have htake := take_succ_add_of_drop_eq_cons hdrop 0
    rw [Nat.add_zero, List.take_zero] at htake
    rw [htake, words_append, words_cons, words_nil]
  · cases h
termination_by 5 * ts.length + 4

end


/-! ## Completeness -/

/-- What comes of a reader is a reading, unless the limit of the spelling lies deeper than the
readers go and the tokens are too deep for them. -/
def Reads {α : Type} (limit : Int) (outcome : Except Error α) (r : α) : Prop :=
  outcome = .ok r ∨ maxDepth < limit ∧ ∃ offset, outcome = .error (.tooDeep maxDepth offset)

namespace Reads

variable {α β : Type} {limit : Int}

theorem bind {x : Except Error α} {f : α → Except Error β} {a : α} {b : β}
    (hx : Reads limit x a) (hf : Reads limit (f a) b) : Reads limit (x.bind f) b := by
  obtain rfl | ⟨hlimit, offset, rfl⟩ := hx
  · exact hf
  · exact Or.inr ⟨hlimit, offset, rfl⟩

theorem map {x : Except Error α} {a : α} (f : α → β) (hx : Reads limit x a) :
    Reads limit (x.map f) (f a) := by
  obtain rfl | ⟨hlimit, offset, rfl⟩ := hx
  · exact Or.inl rfl
  · exact Or.inr ⟨hlimit, offset, rfl⟩

theorem tooDeep {finish : Nat} {ts : List Located} {a : α} (h : maxDepth < limit) :
    Reads limit (.error (CallCheck.Expr.tooDeep finish ts)) a :=
  Or.inr ⟨h, nextOffset finish ts, rfl⟩

theorem eq_ok {x : Except Error α} {a : α} (h : Reads maxDepth x a) : x = .ok a := by
  obtain h | ⟨hlimit, -⟩ := h
  · exact h
  · exact absurd hlimit (Int.lt_irrefl _)

end Reads

mutual

theorem SpellsExpr.reads {limit level : Int} {us : List Token} {t : Tree}
    (h : SpellsExpr limit level us t) (finish : Nat) {ts : List Located} (rest : List Located)
    (hts : words ts = us) (hdot : ∀ t ∈ rest.head?, t.token ≠ .dot)
    (hassign : ∀ t ∈ rest.head?, t.token ≠ .assign) :
    Reads limit (parseExpr finish level (ts ++ rest)) ⟨t, ts.length, level⟩ := by
  cases h with
  | @path _ _ dots _ hlimit hpath =>
    by_cases hlevel : level + 1 ≤ maxDepth
    · have hread := hpath.reads finish rest hts (Or.inl (parseDots_stop hdot))
      rw [parseExpr_eq hlevel]
      refine hread.bind (Or.inl ?_)
      simp only [Reading.after, Nat.add_zero, List.drop_left]
      split
      · exact absurd rfl (hassign _ rfl)
      · rw [Int.add_sub_cancel, Int.add_sub_cancel]
    · rw [parseExpr_tooDeep (by omega)]
      exact .tooDeep (by omega)
  | @assign _ vs ws dots target _ hlimit hpath hsource =>
    obtain ⟨as, bs, rfl, has, hbs⟩ := List.map_eq_append_iff.1 hts
    obtain ⟨⟨token, offset⟩, cs, rfl, rfl, hcs⟩ := List.map_eq_cons_iff.1 hbs
    by_cases hlevel : level + 1 ≤ maxDepth
    · have hread := hpath.reads finish (⟨.assign, offset⟩ :: (cs ++ rest)) has
        (Or.inl (parseDots_stop (by simp)))
      rw [parseExpr_eq hlevel, List.append_assoc, List.cons_append]
      refine hread.bind ?_
      simp only [Reading.after, Nat.add_zero, List.drop_left, Int.add_sub_cancel]
      have hmap := (hsource.reads finish rest hcs hdot hassign).map fun r ↦
        (⟨.assign target r.value, as.length + 1 + r.taken, r.level - 1⟩ : Reading Tree)
      simpa [Nat.add_assoc, Nat.add_comm 1] using hmap
    · rw [parseExpr_tooDeep (by omega)]
      exact .tooDeep (by omega)
termination_by 5 * ts.length + 3

theorem SpellsPath.reads {limit level : Int} {us : List Token} {dots : Nat} {t : Tree}
    (h : SpellsPath limit level us dots t) (finish : Nat) {ts : List Located} (rest : List Located)
    {r : Reading Tree} (hts : words ts = us)
    (hr : Reads limit (parseDots finish (level + dots) dots t rest) r) :
    Reads limit (parsePath finish level (ts ++ rest)) (r.after ts.length) := by
  cases h with
  | atom hatom =>
    have hread := hatom.reads finish rest hts
    rw [parsePath_eq]
    refine hread.bind ?_
    simpa using hr.map _
  | @dot _ vs ws dots left right hleft hlimit hright =>
    obtain ⟨as, bs, rfl, has, hbs⟩ := List.map_eq_append_iff.1 hts
    obtain ⟨⟨token, offset⟩, cs, rfl, rfl, hcs⟩ := List.map_eq_cons_iff.1 hbs
    -- To read the dot and the atom behind it is to stand behind one dot more.
    have hdots : Reads limit (parseDots finish (level + dots) dots left
        (⟨.dot, offset⟩ :: (cs ++ rest))) (r.after (1 + cs.length)) := by
      by_cases hlevel : level + dots + 1 ≤ maxDepth
      · have hread := hright.reads finish rest hcs
        rw [parseDots_dot hlevel]
        refine hread.bind ?_
        rw [Int.natCast_succ, ← Int.add_assoc] at hr
        simpa using hr.map _
      · rw [parseDots_tooDeep (by omega)]
        exact .tooDeep (by omega)
    have hread := hleft.reads finish (⟨.dot, offset⟩ :: (cs ++ rest)) has hdots
    simpa [Reading.after, Nat.add_assoc, Nat.add_comm 1, Nat.add_left_comm] using hread
termination_by 5 * ts.length + 2

theorem SpellsAtom.reads {limit level : Int} {us : List Token} {t : Tree}
    (h : SpellsAtom limit level us t) (finish : Nat) {ts : List Located} (rest : List Located)
    (hts : words ts = us) :
    Reads limit (parseAtom finish level (ts ++ rest)) ⟨t, ts.length, level⟩ := by
  cases h with
  | leaf hleaf =>
    obtain ⟨a, as, rfl, rfl, has⟩ := List.map_eq_cons_iff.1 hts
    obtain rfl := List.map_eq_nil_iff.1 has
    exact Or.inl (parseAtom_leaf hleaf)
  | @call _ vs f args hargs =>
    obtain ⟨⟨token, offset⟩, as, rfl, rfl, has⟩ := List.map_eq_cons_iff.1 hts
    obtain ⟨⟨token, offset'⟩, bs, rfl, rfl, hbs⟩ := List.map_eq_cons_iff.1 has
    have hmap := (hargs.reads finish rest hbs).map fun r ↦
      (⟨.call f r.value, r.taken + 2, r.level⟩ : Reading Tree)
    rw [List.cons_append, List.cons_append, parseAtom_call]
    exact hmap
termination_by 5 * ts.length

theorem SpellsArgs.reads {limit level : Int} {us : List Token} {args : List Tree}
    (h : SpellsArgs limit level us args) (finish : Nat) {ts : List Located} (rest : List Located)
    (hts : words ts = us ++ [.rightParen]) :
    Reads limit (parseArgs finish level (ts ++ rest)) ⟨args, ts.length, level⟩ := by
  cases h with
  | last harg =>
    obtain ⟨as, bs, rfl, has, hbs⟩ := List.map_eq_append_iff.1 hts
    obtain ⟨⟨token, offset⟩, cs, rfl, rfl, hcs⟩ := List.map_eq_cons_iff.1 hbs
    obtain rfl := List.map_eq_nil_iff.1 hcs
    have hread := harg.reads finish (⟨.rightParen, offset⟩ :: rest) has
      (by simp) (by simp)
    rw [parseArgs_eq, List.append_assoc, List.cons_append]
    refine hread.bind (Or.inl ?_)
    simp
  | @more _ vs ws arg args harg hargs =>
    rw [List.append_assoc] at hts
    obtain ⟨as, bs, rfl, has, hbs⟩ := List.map_eq_append_iff.1 hts
    obtain ⟨⟨token, offset⟩, cs, rfl, rfl, hcs⟩ := List.map_eq_cons_iff.1 hbs
    have hread := harg.reads finish (⟨.comma, offset⟩ :: (cs ++ rest)) has
      (by simp) (by simp)
    rw [parseArgs_eq, List.append_assoc, List.cons_append]
    refine hread.bind ?_
    simp only [List.drop_left]
    have hmap := (hargs.reads finish rest hcs).map fun r ↦
      (⟨arg :: r.value, as.length + 1 + r.taken, r.level⟩ : Reading (List Tree))
    simpa [Nat.add_assoc, Nat.add_comm 1] using hmap
termination_by 5 * ts.length + 4

end

/-! ## Whole sources -/

theorem ofTokens_eq_ok_iff {ts : Tokens} {t : Tree} :
    ofTokens ts = .ok t ↔ SpellsExpr maxDepth 0 (words ts.list) t := by
  constructor
  · intro h
    rw [ofTokens] at h
    split at h
    · cases h
    · rename_i tree n level hread
      split at h
      · rename_i hdrop
        obtain rfl := Except.ok.inj h
        have hspells := (parseExpr_sound hread).spells
        rwa [List.take_of_length_le (List.drop_eq_nil_iff.1 hdrop)] at hspells
      · cases h
  · intro h
    have hread := (h.reads ts.finish [] rfl (by simp) (by simp)).eq_ok
    rw [List.append_nil] at hread
    rw [ofTokens, hread]
    simp only [List.drop_length]

/-- Tokens spell no second tree, not even deeper than the readers go. -/
theorem SpellsExpr.eq {us : List Token} {t t' : Tree} {limit : Int}
    (h : SpellsExpr maxDepth 0 us t) (h' : SpellsExpr limit 0 us t') : t' = t := by
  have hwords : words (us.map fun token ↦ ⟨token, 0⟩) = us := by simp [words, Function.comp_def]
  have hread := (h.reads 0 [] hwords (by simp) (by simp)).eq_ok
  have hread' := h'.reads 0 [] hwords (by simp) (by simp)
  rw [hread] at hread'
  obtain heq | ⟨-, offset, heq⟩ := hread'
  · exact (congrArg Reading.value (Except.ok.inj heq)).symm
  · cases heq

theorem parse_of_spells {cs : List Char} {us : List Token} {t : Tree} (hscans : Scans cs us)
    (hspells : SpellsExpr maxDepth 0 us t) : parse (String.ofList cs) = .ok t := by
  obtain ⟨ts, htokens, rfl⟩ := hscans.tokenize_eq_ok
  rw [parse, htokens]
  exact ofTokens_eq_ok_iff.2 hspells

/-- A reader, whenever it succeeds, leaves the counter of levels where it was and takes no more
tokens than there are. -/
def Settles {α : Type} (read : Int → List Located → Except Error (Reading α)) : Prop :=
  ∀ level ts r, read level ts = .ok r → r.level = level ∧ r.taken ≤ ts.length

theorem Settles.of_isSound {α : Type} {read : Int → List Located → Except Error (Reading α)}
    {Spells : Int → List Token → α → Prop}
    (h : ∀ level ts r, read level ts = .ok r → r.IsSound (Spells level) level ts) :
    Settles read :=
  fun level ts r hr ↦ ⟨(h level ts r hr).level_eq, (h level ts r hr).taken_le⟩

/-- **Parsing is exact.** A source that has tokens is parsed as a tree just when its tokens spell
the tree within the deepest level; it is then the only tree that they spell at any depth. None of
the readers leaves the counter of levels anywhere but where it was, nor moves past the last
token. -/
theorem parse_exact {source : String} {ts : Tokens} (h : tokenize source = .ok ts) :
    (∀ t, parse source = .ok t ↔ SpellsExpr maxDepth 0 (words ts.list) t) ∧
      (∀ t, parse source = .ok t → ∀ limit t', SpellsExpr limit 0 (words ts.list) t' → t' = t) ∧
      Settles (parseExpr ts.finish) ∧ Settles (parsePath ts.finish) ∧
      Settles (parseAtom ts.finish) ∧ Settles (parseArgs ts.finish) := by
  have hparse : ∀ t, parse source = .ok t ↔ SpellsExpr maxDepth 0 (words ts.list) t := by
    intro t
    rw [parse, h]
    exact ofTokens_eq_ok_iff
  refine ⟨hparse, ?_, ?_, ?_, ?_, ?_⟩
  · intro t ht limit t' ht'
    exact ((hparse t).1 ht).eq ht'
  · exact .of_isSound fun _ _ _ ↦ parseExpr_sound
  · exact .of_isSound fun _ _ _ ↦ parsePath_sound
  · exact .of_isSound fun _ _ _ ↦ parseAtom_sound
  · exact .of_isSound fun _ _ _ ↦ parseArgs_sound

/-- Assignments nest to the right and dots to the left. -/
theorem parse_exact_nested :
    tokenize "\"a\"=\"b\".\"c\".\"d\"=\"e\"" =
        .ok ⟨[⟨.string "a", 0⟩, ⟨.assign, 3⟩, ⟨.string "b", 4⟩, ⟨.dot, 7⟩, ⟨.string "c", 8⟩,
          ⟨.dot, 11⟩, ⟨.string "d", 12⟩, ⟨.assign, 15⟩, ⟨.string "e", 16⟩], 19⟩ ∧
      parse "\"a\"=\"b\".\"c\".\"d\"=\"e\"" =
        .ok (.assign (.literal (.string "a"))
          (.assign (.dot (.dot (.literal (.string "b")) (.literal (.string "c")))
            (.literal (.string "d"))) (.literal (.string "e")))) := by
  have htokens : tokenize "\"a\"=\"b\".\"c\".\"d\"=\"e\"" =
      .ok ⟨[⟨.string "a", 0⟩, ⟨.assign, 3⟩, ⟨.string "b", 4⟩, ⟨.dot, 7⟩, ⟨.string "c", 8⟩,
        ⟨.dot, 11⟩, ⟨.string "d", 12⟩, ⟨.assign, 15⟩, ⟨.string "e", 16⟩], 19⟩ := by
    simp [tokenize, scan_nil, scan_cons, lexeme, quotedText, Text.isBlank, Tokens.behind,
      Except.map]
    decide
  refine ⟨htokens, ((parse_exact htokens).1 _).2 ?_⟩
  have hsource : SpellsExpr maxDepth (0 + 1 + 1) [.string "e"] (.literal (.string "e")) :=
    .path (by decide) (.atom (.leaf rfl))
  have hinner : SpellsPath maxDepth (0 + 1 + 1) ([.string "b"] ++ .dot :: [.string "c"]) 1 _ :=
    .dot (.atom (.leaf rfl)) (by decide) (.leaf rfl)
  have houter : SpellsPath maxDepth (0 + 1 + 1) (_ ++ .dot :: [.string "d"]) 2 _ :=
    .dot hinner (by decide) (.leaf rfl)
  have htarget : SpellsPath maxDepth (0 + 1) [.string "a"] 0 _ := .atom (.leaf rfl)
  exact .assign (by decide) htarget (.assign (by decide) houter hsource)

end CallCheck.Expr

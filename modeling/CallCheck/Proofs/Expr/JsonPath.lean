import CallCheck.Expr.Eval
import CallCheck.Proofs.Expr.Cutting
import CallCheck.Proofs.Expr.Parsing
import CallCheck.Proofs.Json.Writing
import Mathlib.Data.List.Chain

/-!
# Paths into a JSON body

A path that is written out leads to the element that its components lead to, one after the other.
There is one exception, and it lies with the lexemes: an index with a point and a digit behind it is
a number with a fraction. Two indices in a row are therefore read as one atom, which is no name, and
the evaluation ends there.

## Main statement

`evaluate_jsonPath`: the source of a path that leads to an element evaluates to the element if no
two indices stand in a row, and otherwise to the error that a number is no attribute.
-/

namespace CallCheck.Expr

open Numeric Text

/-! ## Components -/

/-- Some characters of a class. -/
structure Word (p : Char → Bool) where
  /-- The first character. -/
  first : Char
  /-- The other ones. -/
  more : List Char
  all : (first :: more).all p = true

/-- The characters of a word. -/
def Word.chars {p : Char → Bool} (w : Word p) : List Char := w.first :: w.more

theorem Word.of_mem {p : Char → Bool} (w : Word p) : ∀ c ∈ w.chars, p c = true :=
  List.all_eq_true.1 w.all

/-- A component of a path into a document. -/
inductive Component
  /-- A name. -/
  | name (letters : Word isAlphabetic)
  /-- An index in decimal. -/
  | index (digits : Word isDigit) (le_maxInt : natOfDigits 0 digits.chars ≤ maxInt)

namespace Component

/-- Whether a component is an index. -/
def isIndex : Component → Bool
  | name _ => false
  | index .. => true

/-- How a component is written. -/
def chars : Component → List Char
  | name letters => letters.chars
  | index digits _ => digits.chars

/-- The name after a dot that a component is. -/
def toName : Component → Name
  | name letters => .field (String.ofList letters.chars)
  | index digits _ => .index (Int64.ofNat (natOfDigits 0 digits.chars))

/-- The element that a component leads to: a member by its key, which for an index is its value in
decimal, or an item by its position. -/
def step : Component → Json → Option Json
  | name letters, .object members => Json.lookup (String.ofList letters.chars) members
  | index digits _, .object members => Json.lookup (toString (natOfDigits 0 digits.chars)) members
  | index digits _, .array items => items[natOfDigits 0 digits.chars]?
  | _, _ => none

end Component

/-- The element that components lead to, one after the other. -/
def walk (j : Json) : List Component → Option Json
  | [] => some j
  | p :: ps => (p.step j).bind (walk · ps)

/-- The source that leads along a path into the body of the response. -/
def pathSource (ps : List Component) : String :=
  "$res.$body.$json." ++ ".".intercalate (ps.map fun p ↦ String.ofList p.chars)

/-! ## Atoms -/

/-- What is read as one atom: a component, or an index with another one behind it. -/
inductive Atom
  | one (p : Component)
  | two (whole fraction : Word isDigit)

namespace Atom

/-- The characters of an atom. -/
def chars : Atom → List Char
  | one p => p.chars
  | two whole fraction => whole.chars ++ '.' :: fraction.chars

/-- The literal of two indices. -/
def real (whole fraction : Word isDigit) : Binary64 :=
  .ofDecimal false ⟨natOfDigits 0 (whole.chars ++ fraction.chars), -(fraction.chars.length : Int)⟩

/-- The token that an atom spells. -/
def token : Atom → Token
  | one (.name letters) => .identifier (String.ofList letters.chars)
  | one (.index digits _) => .number (Int64.ofNat (natOfDigits 0 digits.chars))
  | two whole fraction => .real (real whole fraction)

/-- The expression that an atom spells. -/
def tree : Atom → Tree
  | one (.name letters) => .variable (String.ofList letters.chars)
  | one (.index digits _) => .literal (.int (Int64.ofNat (natOfDigits 0 digits.chars)))
  | two whole fraction => .literal (.float (real whole fraction))

/-- An atom with the dot before it. -/
def pieces (a : Atom) : List Piece := [⟨[], ['.'], .dot⟩, ⟨[], a.chars, a.token⟩]

end Atom

/-- The atoms that components are read as, from left to right. -/
def atoms : List Component → List Atom
  | .index whole _ :: .index fraction _ :: ps => .two whole fraction :: atoms ps
  | p :: ps => .one p :: atoms ps
  | [] => []

theorem head?_not_isIndex {p : Component} {ps : List Component}
    (hone : ∀ whole hwhole fraction hfraction rest, p = .index whole hwhole →
      ps = .index fraction hfraction :: rest → False)
    (hp : p.isIndex = true) : ∀ q ∈ ps.head?, q.isIndex = false := by
  intro q hq
  obtain ⟨rest, rfl⟩ := List.head?_eq_some_iff.1 hq
  cases p with
  | name letters => cases hp
  | index whole hwhole =>
    cases q with
    | name letters => rfl
    | index fraction hfraction => exact absurd rfl (hone whole hwhole fraction hfraction rest rfl)

/-- Components with the dots before them. -/
def dotted (ps : List Component) : List Char := ps.flatMap fun p ↦ '.' :: p.chars

@[simp] theorem dotted_cons (p : Component) (ps : List Component) :
    dotted (p :: ps) = '.' :: (p.chars ++ dotted ps) := rfl

theorem toList_pathSource {ps : List Component} (h : ps ≠ []) :
    (pathSource ps).toList = "$res.$body.$json".toList ++ dotted ps := by
  have hdots : '.' :: List.intercalate ['.'] (ps.map Component.chars) = dotted ps := by
    induction ps with
    | nil => exact absurd rfl h
    | cons p ps ih =>
      cases ps with
      | nil => simp [dotted]
      | cons q ps =>
        rw [List.map_cons, List.map_cons, List.intercalate_cons_cons, ← List.map_cons,
          List.append_assoc, List.singleton_append, ih (by simp), dotted_cons p]
  have hstart : "$res.$body.$json.".toList = "$res.$body.$json".toList ++ ['.'] := rfl
  refine String.toList_append.trans ?_
  rw [String.toList_intercalate, ← hdots, hstart]
  simp [Function.comp_def]

/-! ## Reading a path -/

theorem isRun_dotted {p : Char → Bool} (hp : p '.' = false) (w : Word p) (ps : List Component) :
    IsRun p w.chars (dotted ps) := by
  refine ⟨w.of_mem, ?_⟩
  cases ps with
  | nil => simp [dotted]
  | cons q ps => simpa using hp

/-- The digits of an index and the point behind them are not all of a number with a fraction,
unless the next component is an index. -/
theorem not_hasFraction_dotted {ps : List Component} (h : ∀ p ∈ ps.head?, p.isIndex = false) :
    ¬ HasFraction (dotted ps) := by
  rintro ⟨d, more, heq, hd⟩
  cases ps with
  | nil => cases heq
  | cons p ps =>
    cases p with
    | name letters =>
      obtain ⟨rfl, -⟩ := List.cons.inj (List.cons.inj heq).2
      have hletter := letters.of_mem _ List.mem_cons_self
      rw [(not_letter_of_isDigit hd).1] at hletter
      exact Bool.false_ne_true hletter
    | index digits hle => cases h _ rfl

theorem isLexeme_index {digits : Word isDigit} {ps : List Component}
    (hle : natOfDigits 0 digits.chars ≤ maxInt) (h : ∀ p ∈ ps.head?, p.isIndex = false) :
    IsLexeme digits.chars (.number (Int64.ofNat (natOfDigits 0 digits.chars))) (dotted ps) :=
  .number (isRun_dotted (by decide) digits ps) (not_hasFraction_dotted h)
    (Int64.toInt_ofNat_of_lt (Nat.lt_succ_of_le hle))

theorem cuts_dotted (ps : List Component) :
    Cuts ((atoms ps).flatMap Atom.pieces) (dotted ps) [] := by
  have hcons {a : Atom} {as : List Atom} {rest : List Char}
      (hlexeme : IsLexeme a.chars a.token rest) (hcuts : Cuts (as.flatMap Atom.pieces) rest []) :
      Cuts ((a :: as).flatMap Atom.pieces) ('.' :: (a.chars ++ rest)) [] :=
    .cons (p := ⟨[], ['.'], .dot⟩) (by simp) (.punctuation (by decide))
      (.cons (p := ⟨[], a.chars, a.token⟩) (by simp) hlexeme hcuts)
  fun_induction atoms ps with
  | case1 whole _ fraction _ ps ih =>
    -- the point behind the first index is followed by a digit, so it belongs to the number
    have hreal : IsLexeme (Atom.two whole fraction).chars (Atom.two whole fraction).token
        (dotted ps) :=
      .real ⟨whole.of_mem, by simp; decide⟩ (isRun_dotted (by decide) fraction ps)
    simpa [Atom.chars, Component.chars] using hcons hreal ih
  | case2 p ps hnext ih =>
    refine hcons (a := .one p) ?_ ih
    cases p with
    | name letters => exact .identifier (isRun_dotted (by decide) letters ps)
    | index digits hle => exact isLexeme_index hle (head?_not_isIndex hnext rfl)
  | case3 => exact .nil

/-- The expression of a path that starts with one. -/
def pathTree (t : Tree) (as : List Atom) : Tree := as.foldl (fun t a ↦ .dot t a.tree) t

@[simp] theorem pathTree_nil (t : Tree) : pathTree t [] = t := rfl

@[simp] theorem pathTree_cons (t : Tree) (a : Atom) (as : List Atom) :
    pathTree t (a :: as) = pathTree (.dot t a.tree) as := rfl

theorem SpellsPath.along {limit level : Int} {us : List Token} {dots : Nat} {t : Tree}
    (as : List Atom) (h : SpellsPath limit level us dots t)
    (hlimit : level + dots + as.length ≤ limit) :
    SpellsPath limit level (us ++ (as.flatMap Atom.pieces).map Piece.token) (dots + as.length)
      (pathTree t as) := by
  induction as generalizing us dots t with
  | nil => simpa using h
  | cons a as ih =>
    have hleaf : SpellsAtom limit (level + dots + 1) [a.token] a.tree := by
      refine .leaf ?_
      rcases a with (letters | ⟨digits, hle⟩) | ⟨whole, fraction⟩ <;> rfl
    rw [List.length_cons] at hlimit
    have hstep := ih (.dot h (by omega) hleaf) (by omega)
    simpa [Atom.pieces, Nat.add_assoc, Nat.add_comm 1] using hstep

theorem length_atoms_le (ps : List Component) : (atoms ps).length ≤ ps.length := by
  fun_induction atoms ps with
  | case1 _ _ _ _ ps ih => exact Nat.le_succ_of_le (Nat.succ_le_succ ih)
  | case2 _ ps _ ih => exact Nat.succ_le_succ ih
  | case3 => exact Nat.le_refl 0

/-- The body of the response as a document. -/
def bodyTree : Tree := .dot (.dot (.global .res) (.attr .body)) (.attr .json)

/-- A path into the body is parsed as its atoms after the body, if it is not too long. -/
theorem parse_pathSource {ps : List Component} (hne : ps ≠ []) (h : ps.length + 3 ≤ maxDepth) :
    parse (pathSource ps) = .ok (pathTree bodyTree (atoms ps)) := by
  have hjson : IsRun isAlphabetic "json".toList (dotted ps) :=
    isRun_dotted (by decide) ⟨'j', "son".toList, by decide⟩ ps
  have hcuts : Cuts (⟨[], "$res".toList, .global .res⟩ :: ⟨[], ['.'], .dot⟩ ::
      ⟨[], "$body".toList, .attr .body⟩ :: ⟨[], ['.'], .dot⟩ ::
      ⟨[], "$json".toList, .attr .json⟩ :: (atoms ps).flatMap Atom.pieces)
      (pathSource ps).toList [] := by
    rw [toList_pathSource hne]
    refine .cons (by simp) (.keyword (.inl rfl) (.of_all (by decide) rfl) (by decide)) ?_
    refine .cons (by simp) (.punctuation (by decide)) ?_
    refine .cons (by simp) (.keyword (.inl rfl) (.of_all (by decide) rfl) (by decide)) ?_
    refine .cons (by simp) (.punctuation (by decide)) ?_
    exact .cons (by simp) (.keyword (.inl rfl) hjson (by decide)) (cuts_dotted ps)
  have hsplits : Splits _ (pathSource ps).toList [] := ⟨hcuts, by simp⟩
  have hbody : SpellsPath maxDepth (0 + 1)
      ([.global .res] ++ .dot :: [.attr .body] ++ .dot :: [.attr .json]) 2 bodyTree :=
    .dot (.dot (.atom (.leaf rfl)) (by decide) (.leaf rfl)) (by decide) (.leaf rfl)
  have hlength := length_atoms_le ps
  rw [parse, tokenize, hsplits.scan_eq]
  refine ofTokens_eq_ok_iff.2 ?_
  rw [words_located]
  exact .path (by decide) (hbody.along (atoms ps) (by omega))

/-! ## Following a path -/

/-- No index has an index behind it. -/
def Separate (ps : List Component) : Prop :=
  ps.IsChain fun p q ↦ ¬ (p.isIndex = true ∧ q.isIndex = true)

theorem Name.of_component (p : Component) : Name.of (Atom.one p).tree = .ok p.toName := by
  cases p <;> rfl

/-- An element is the attribute of the document under the component that leads to it. -/
theorem Context.get_step (c : Context) {p : Component} {j k : Json} (h : p.step j = some k) :
    c.get (.ofJson j) p.toName = .ok (.ofJson k) := by
  cases p with
  | name letters =>
    cases j with
    | object members =>
      change Except.ok (valueOr _) = _
      rw [show Json.lookup _ members = some k from h]
      rfl
    | _ => cases h
  | index digits hle =>
    have hvalue : (Int64.ofNat (natOfDigits 0 digits.chars)).toInt = natOfDigits 0 digits.chars :=
      Int64.toInt_ofNat_of_lt (Nat.lt_succ_of_le hle)
    cases j with
    | object members =>
      have hkey : toString ((natOfDigits 0 digits.chars : Nat) : Int) =
          toString (natOfDigits 0 digits.chars) := rfl
      change Except.ok (valueOr _) = _
      rw [hvalue, hkey, show Json.lookup _ members = some k from h]
      rfl
    | array items =>
      change Except.ok (if _ then valueOr _ else _) = _
      rw [hvalue, if_pos (Int.natCast_nonneg _), Int.toNat_natCast,
        show items[_]? = some k from h]
      rfl
    | _ => cases h

theorem eval_dot_component {c : Context} {t : Tree} {p : Component} {j k : Json}
    (ht : t.eval c = (.ok (.ofJson j), c)) (h : p.step j = some k) :
    (Tree.dot t (Atom.one p).tree).eval c = (.ok (.ofJson k), c) := by
  rw [Tree.eval, ht]
  simp only [Name.of_component]
  exact congrArg (·, c) (c.get_step h)

theorem eval_pathTree_error {c : Context} {t : Tree} {e : Error} (as : List Atom)
    (ht : t.eval c = (.error e, c)) : (pathTree t as).eval c = (.error e, c) := by
  induction as generalizing t with
  | nil => exact ht
  | cons a as ih =>
    refine ih ?_
    rw [Tree.eval, ht]

theorem eval_pathTree {c : Context} {t : Tree} {j k : Json} {ps : List Component}
    (ht : t.eval c = (.ok (.ofJson j), c)) (hwalk : walk j ps = some k) :
    (Separate ps → (pathTree t (atoms ps)).eval c = (.ok (.ofJson k), c)) ∧
      (¬ Separate ps →
        (pathTree t (atoms ps)).eval c = (.error (.invalidAttribute "a number"), c)) := by
  fun_induction atoms ps generalizing t j with
  | case1 whole hwhole fraction hfraction ps =>
    have htwo : ¬ Separate (.index whole hwhole :: .index fraction hfraction :: ps) := by
      intro h
      exact (List.isChain_cons_cons.1 h).1 ⟨rfl, rfl⟩
    have hreal : (Tree.dot t (Atom.two whole fraction).tree).eval c =
        (.error (.invalidAttribute "a number"), c) := by
      rw [Tree.eval, ht]
      rfl
    exact ⟨fun h ↦ absurd h htwo, fun _ ↦ eval_pathTree_error (atoms ps) hreal⟩
  | case2 p ps hnext ih =>
    obtain ⟨i, hstep, hrest⟩ := Option.bind_eq_some_iff.1 hwalk
    have hseparate : Separate (p :: ps) ↔ Separate ps := by
      rw [Separate, List.isChain_cons]
      refine ⟨fun h ↦ h.2, fun h ↦ ⟨?_, h⟩⟩
      rintro q hq ⟨hp, hindex⟩
      rw [head?_not_isIndex hnext hp q hq] at hindex
      cases hindex
    rw [hseparate]
    exact ih (eval_dot_component ht hstep) hrest
  | case3 =>
    obtain rfl := Option.some.inj hwalk
    exact ⟨fun _ ↦ ht, fun h ↦ absurd .nil h⟩

theorem eval_bodyTree {c : Context} {x : Exchange} {j : Json}
    (hresponse : c.sides.response = some x) (hbody : Json.parseBytes? x.body = some j) :
    bodyTree.eval c = (.ok (.ofJson j), c) := by
  have hget : c.sides.get .response = .ok x := by simp [Exchanges.get, hresponse]
  simp [bodyTree, Tree.eval, Name.of, Except.bind, Context.get, Value.supports, bodyView?, hget,
    hbody]

/-- **A path into the body leads where its components lead**, if no two indices stand in a row;
two such indices are one number, which is no attribute. -/
theorem evaluate_jsonPath {c : Context} {x : Exchange} {j k : Json} {ps : List Component}
    (hresponse : c.sides.response = some x) (hbody : Json.parseBytes? x.body = some j)
    (hne : ps ≠ []) (hlength : ps.length + 3 ≤ maxDepth) (hwalk : walk j ps = some k) :
    (Separate ps → c.evaluate (pathSource ps) = (.ok (.ofJson k), c)) ∧
      (¬ Separate ps →
        c.evaluate (pathSource ps) = (.error (.invalidAttribute "a number"), c)) := by
  rw [Context.evaluate, parse_pathSource hne hlength]
  exact eval_pathTree (eval_bodyTree hresponse hbody) hwalk

/-- The first position. -/
def firstIndex : Component := .index ⟨'0', [], by decide⟩ (by decide)

/-- The second position. -/
def secondIndex : Component := .index ⟨'1', [], by decide⟩ (by decide)

/-- A name. -/
def tagsName : Component := .name ⟨'t', "ags".toList, by decide⟩

/-- An object in an array, with an array in it. -/
def tagged : Json := .array [.object [("tags", .array [.string "a", .string "b"])]]

/-- An array of arrays. -/
def grid : Json := .array [.array [.int 1, .int 2], .array [.int 3, .int 4]]

/-- A call whose response has the text of a document as its body. -/
def responseOf (j : Json) : Context := { sides := { response := some ⟨Utf8.encode j.text, []⟩ } }

/-- A name keeps two indices apart. -/
theorem evaluate_jsonPath_tagged :
    pathSource [firstIndex, tagsName, secondIndex] = "$res.$body.$json.0.tags.1" ∧
      (responseOf tagged).evaluate (pathSource [firstIndex, tagsName, secondIndex]) =
        (.ok (.string "b"), responseOf tagged) := by
  have hreadable : tagged.Readable 0 :=
    ⟨by decide, ⟨by decide, ⟨by decide, trivial, trivial, trivial⟩, trivial⟩, trivial⟩
  have hbody := Json.parseBytes?_text hreadable rfl
  have hwalk : walk tagged [firstIndex, tagsName, secondIndex] = some (.string "b") := rfl
  have hseparate : Separate [firstIndex, tagsName, secondIndex] := by
    simp [Separate, firstIndex, tagsName, secondIndex, Component.isIndex]
  exact ⟨rfl, (evaluate_jsonPath rfl hbody (by simp) (by decide) hwalk).1 hseparate⟩

/-- Two indices in a row are one number, although they lead to an element. -/
theorem evaluate_grid :
    Json.parseBytes? (Utf8.encode grid.text) = some grid ∧
      pathSource [firstIndex, secondIndex] = "$res.$body.$json.0.1" ∧
      walk grid [firstIndex, secondIndex] = some (.int 2) ∧
      (responseOf grid).evaluate "$res.$body.$json.0.1" =
        (.error (.invalidAttribute "a number"), responseOf grid) := by
  have hint (i : Int) (h : 0 ≤ i ∧ i < 5) : (Json.int i).Readable 2 := by
    have hcapacity : (5 : Int) ≤ Numeric.capacity 64 := by decide
    exact Json.Number.readable_int (by omega) (by omega)
  have hreadable : grid.Readable 0 :=
    ⟨by decide, ⟨by decide, hint 1 (by decide), hint 2 (by decide), trivial⟩,
      ⟨by decide, hint 3 (by decide), hint 4 (by decide), trivial⟩, trivial⟩
  have hbody := Json.parseBytes?_text hreadable rfl
  have hwalk : walk grid [firstIndex, secondIndex] = some (.int 2) := rfl
  have hjoined : ¬ Separate [firstIndex, secondIndex] := by
    simp [Separate, firstIndex, secondIndex, Component.isIndex]
  have hsource : pathSource [firstIndex, secondIndex] = "$res.$body.$json.0.1" := rfl
  refine ⟨hbody, hsource, hwalk, ?_⟩
  rw [← hsource, Context.evaluate, parse_pathSource (by simp) (by decide)]
  exact (eval_pathTree (eval_bodyTree rfl hbody) hwalk).2 hjoined

end CallCheck.Expr

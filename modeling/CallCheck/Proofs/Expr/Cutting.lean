import CallCheck.Proofs.Expr.Lexemes
import CallCheck.Proofs.Expr.Scanning
import Mathlib.Data.String.Basic

/-!
# Cutting a source into lexemes

A text in pieces: a row of lexemes, each with the blanks before it. The pieces cover the text from
its first character on without a gap and without an overlap, and what they leave is either blanks
alone, or blanks and a place where no lexeme starts. Exactly one of the two happens, for exactly one
row of pieces, and scanning finds it.

## Main statement

`tokenize_exact`: the tokens of a source are its lexemes at the bytes where they start, every lexeme
lies between two boundaries of characters, and an error is about the first place where neither a
blank nor a lexeme stands; the source up to there has the tokens of the pieces before it.
-/

namespace CallCheck.Expr

open Text

/-- A lexeme with the blanks before it. -/
structure Piece where
  /-- The blanks. -/
  blanks : List Char
  /-- The characters of the lexeme. -/
  text : List Char
  /-- The token that they spell. -/
  token : Token
  deriving DecidableEq, Repr

/-- The characters of pieces. -/
def chars (ps : List Piece) : List Char := ps.flatMap fun p ↦ p.blanks ++ p.text

/-- The tokens of pieces in a text that starts at an offset. -/
def located (offset : Nat) : List Piece → List Located
  | [] => []
  | p :: ps =>
    ⟨p.token, offset + Utf8.width p.blanks⟩ ::
      located (offset + Utf8.width (p.blanks ++ p.text)) ps

/-- A text that starts with pieces, and what they leave of it. -/
inductive Cuts : List Piece → List Char → List Char → Prop
  | nil {last : List Char} : Cuts [] last last
  | cons {p : Piece} {ps : List Piece} {rest last : List Char} :
      (∀ c ∈ p.blanks, isBlank c = true) → IsLexeme p.text p.token rest → Cuts ps rest last →
      Cuts (p :: ps) (p.blanks ++ (p.text ++ rest)) last

/-- A text in pieces, with nothing but blanks at its end. -/
structure Splits (ps : List Piece) (text blanks : List Char) : Prop where
  cuts : Cuts ps text blanks
  blank : ∀ c ∈ blanks, isBlank c = true

/-- A text in pieces up to a place where no lexeme starts. -/
structure Breaks (ps : List Piece) (text blanks bad : List Char) (fault : Fault) : Prop where
  cuts : Cuts ps text (blanks ++ bad)
  blank : ∀ c ∈ blanks, isBlank c = true
  bad : IsFault bad fault

@[simp] theorem chars_nil : chars [] = [] := rfl

@[simp] theorem chars_cons (p : Piece) (ps : List Piece) :
    chars (p :: ps) = p.blanks ++ (p.text ++ chars ps) := by
  simp [chars]

theorem chars_append (ps qs : List Piece) : chars (ps ++ qs) = chars ps ++ chars qs :=
  List.flatMap_append

theorem located_append (offset : Nat) (ps qs : List Piece) :
    located offset (ps ++ qs) =
      located offset ps ++ located (offset + Utf8.width (chars ps)) qs := by
  induction ps generalizing offset with
  | nil => simp [located]
  | cons p ps ih => simp [located, ih, Utf8.width_append, Nat.add_assoc]

@[simp] theorem length_located (offset : Nat) (ps : List Piece) :
    (located offset ps).length = ps.length := by
  induction ps generalizing offset with
  | nil => rfl
  | cons p ps ih => simp [located, ih]

theorem words_located (offset : Nat) (ps : List Piece) :
    words (located offset ps) = ps.map Piece.token := by
  induction ps generalizing offset with
  | nil => rfl
  | cons p ps ih => simp [located, ih]

theorem located_middle (offset : Nat) (before after : List Piece) (p : Piece) :
    (located offset (before ++ p :: after))[before.length]? =
      some ⟨p.token, offset + Utf8.width (chars before ++ p.blanks)⟩ := by
  rw [located_append, List.getElem?_append_right (by simp), length_located, Nat.sub_self]
  simp [located, Utf8.width_append, Nat.add_assoc]

namespace Cuts

variable {ps ps' : List Piece} {text last last' before after : List Char}

theorem eq_append (h : Cuts ps text last) : text = chars ps ++ last := by
  induction h with
  | nil => rfl
  | cons _ _ _ ih => simp [← ih]

theorem of_append (h : Cuts ps text (before ++ after)) : Cuts ps (chars ps ++ before) before := by
  generalize hlast : before ++ after = last at h
  induction h with
  | nil => exact .nil
  | @cons p ps rest last hblanks hlexeme hcuts ih =>
    subst hlast
    rw [hcuts.eq_append, ← List.append_assoc] at hlexeme
    simpa using Cuts.cons hblanks hlexeme.of_append (ih rfl)

end Cuts

/-! ## Every text is cut in one way -/

theorem splits_or_breaks (text : List Char) :
    (∃ ps blanks, Splits ps text blanks) ∨
      ∃ ps blanks bad fault, Breaks ps text blanks bad fault := by
  -- each lexeme has a character, so what is behind it is shorter
  induction h : text.length using Nat.strong_induction_on generalizing text with
  | _ n ih =>
    obtain ⟨blanks, rest, rfl, hrun⟩ := exists_isRun isBlank text
    cases rest with
    | nil => exact .inl ⟨[], blanks, by simpa using Cuts.nil, hrun.all⟩
    | cons c rest =>
      rcases isLexeme_or_isFault rest (hrun.stops c rfl) with
        ⟨cs, after, token, rfl, hlexeme⟩ | ⟨fault, hfault⟩
      · have hcons {ps : List Piece} {last : List Char} (hcuts : Cuts ps after last) :
            Cuts (⟨blanks, c :: cs, token⟩ :: ps) (blanks ++ c :: (cs ++ after)) last :=
          .cons hrun.all hlexeme hcuts
        have hlt : after.length < n := by
          rw [← h]
          simp only [List.length_append, List.length_cons]
          omega
        rcases ih _ hlt after rfl with ⟨ps, blanks', h⟩ | ⟨ps, blanks', bad, fault, h⟩
        · exact .inl ⟨_, blanks', hcons h.cuts, h.blank⟩
        · exact .inr ⟨_, blanks', bad, fault, hcons h.cuts, h.blank, h.bad⟩
      · exact .inr ⟨[], blanks, _, fault, .nil, hrun.all, hfault⟩

theorem IsRun.unique {p : Char → Bool} {cs cs' rest rest' : List Char} (h : IsRun p cs rest)
    (h' : IsRun p cs' rest') (heq : cs ++ rest = cs' ++ rest') : cs = cs' ∧ rest = rest' := by
  have htake := h.takeWhile_eq
  have hdrop := h.dropWhile_eq
  rw [heq, h'.takeWhile_eq] at htake
  rw [heq, h'.dropWhile_eq] at hdrop
  exact ⟨htake.symm, hdrop.symm⟩

theorem IsLexeme.isRun_blanks {blanks text rest : List Char} {token : Token}
    (hblanks : ∀ c ∈ blanks, isBlank c = true) (h : IsLexeme text token rest) :
    IsRun isBlank blanks (text ++ rest) := by
  obtain ⟨c, cs, rfl, hc⟩ := h.exists_cons
  exact ⟨hblanks, by simpa using hc⟩

/-- What is left of a text when no lexeme follows: blanks, and what is not a lexeme. -/
def Ends (last : List Char) : Prop :=
  ∃ blanks rest, last = blanks ++ rest ∧ IsRun isBlank blanks rest ∧
    ∀ text token after, rest = text ++ after → ¬ IsLexeme text token after

theorem Splits.ends {ps : List Piece} {text blanks : List Char} (h : Splits ps text blanks) :
    Ends blanks := by
  refine ⟨blanks, [], by simp, ⟨h.blank, by simp⟩, ?_⟩
  intro text token after hnil hlexeme
  obtain ⟨c, cs, rfl, -⟩ := hlexeme.exists_cons
  cases hnil

theorem Breaks.isRun {ps : List Piece} {text blanks bad : List Char} {fault : Fault}
    (h : Breaks ps text blanks bad fault) : IsRun isBlank blanks bad := by
  obtain ⟨c, rest, rfl, hc⟩ := h.bad.exists_cons
  exact ⟨h.blank, by simpa using hc⟩

theorem Ends.not_lexeme {blanks text after : List Char} {token : Token}
    (h : Ends (blanks ++ (text ++ after))) (hblanks : ∀ c ∈ blanks, isBlank c = true) :
    ¬ IsLexeme text token after := by
  intro hlexeme
  obtain ⟨blanks', rest, heq, hrun, hnone⟩ := h
  obtain ⟨rfl, hrest⟩ := (hlexeme.isRun_blanks hblanks).unique hrun heq
  exact hnone text token after hrest.symm hlexeme

/-- **Pieces that leave no lexeme are the only ones.** -/
theorem Cuts.unique {ps ps' : List Piece} {text last last' : List Char} (h : Cuts ps text last)
    (h' : Cuts ps' text last') (hends : Ends last) (hends' : Ends last') :
    ps = ps' ∧ last = last' := by
  induction h generalizing ps' with
  | nil =>
    -- what the one row leaves holds no lexeme, so the other row has no piece either
    cases h' with
    | nil => exact ⟨rfl, rfl⟩
    | cons hblanks hlexeme _ => exact absurd hlexeme (hends.not_lexeme hblanks)
  | @cons p ps rest last hblanks hlexeme hcuts ih =>
    generalize htext : p.blanks ++ (p.text ++ rest) = text at h'
    cases h' with
    | nil =>
      rw [← htext] at hends'
      exact absurd hlexeme (hends'.not_lexeme hblanks)
    | @cons p' ps' rest' _ hblanks' hlexeme' hcuts' =>
      obtain ⟨heq, hrest⟩ :=
        (hlexeme.isRun_blanks hblanks).unique (hlexeme'.isRun_blanks hblanks') htext
      obtain ⟨htext, htoken, rfl⟩ := hlexeme.unique hlexeme' hrest
      obtain ⟨rfl, hlast⟩ := ih hcuts' hends
      refine ⟨?_, hlast⟩
      cases p
      cases p'
      simp_all

theorem Splits.unique {ps ps' : List Piece} {text blanks blanks' : List Char}
    (h : Splits ps text blanks) (h' : Splits ps' text blanks') : ps = ps' ∧ blanks = blanks' :=
  h.cuts.unique h'.cuts h.ends h'.ends

/-! ## Scanning finds the pieces -/

theorem scan_blanks {blanks : List Char} (offset : Nat) (rest : List Char)
    (h : ∀ c ∈ blanks, isBlank c = true) :
    scan offset (blanks ++ rest) = scan (offset + Utf8.width blanks) rest := by
  induction blanks generalizing offset with
  | nil => simp
  | cons c blanks ih =>
    rw [List.cons_append, scan_cons, if_pos (h c List.mem_cons_self),
      ih _ fun d hd ↦ h d (List.mem_cons_of_mem c hd), Utf8.width_cons, Nat.add_assoc]

theorem Cuts.scan_eq {ps : List Piece} {text last : List Char} (h : Cuts ps text last)
    (offset : Nat) :
    scan offset text =
      (scan (offset + Utf8.width (chars ps)) last).map (Tokens.behind (located offset ps)) := by
  induction h generalizing offset with
  | @nil last =>
    rw [chars_nil, Utf8.width_nil, Nat.add_zero]
    cases scan offset last <;> rfl
  | @cons p ps rest last hblanks hlexeme _ ih =>
    obtain ⟨c, cs, htext, hc⟩ := hlexeme.exists_cons
    rw [htext] at hlexeme
    rw [scan_blanks offset _ hblanks, htext, List.cons_append, scan_lexeme hc hlexeme.lexeme_eq,
      List.take_left, List.drop_left, ih]
    simp only [located, chars_cons, htext, Utf8.width_append, Nat.add_assoc]
    generalize scan _ last = found
    cases found <;> rfl

theorem Splits.scan_eq {ps : List Piece} {text blanks : List Char} (h : Splits ps text blanks)
    (offset : Nat) : scan offset text = .ok ⟨located offset ps, offset + Utf8.width text⟩ := by
  have hblanks := scan_blanks (offset + Utf8.width (chars ps)) [] h.blank
  rw [List.append_nil, scan_nil] at hblanks
  rw [h.cuts.scan_eq, hblanks, h.cuts.eq_append, Utf8.width_append, Nat.add_assoc]
  simp [Except.map, Tokens.behind]

theorem Breaks.scan_eq {ps : List Piece} {text blanks bad : List Char} {fault : Fault}
    (h : Breaks ps text blanks bad fault) (offset : Nat) :
    scan offset text = .error (fault.at (offset + Utf8.width (chars ps ++ blanks))) := by
  obtain ⟨c, rest, rfl, hc⟩ := h.bad.exists_cons
  have hscan : scan (offset + Utf8.width (chars ps) + Utf8.width blanks) (c :: rest) =
      .error (fault.at (offset + Utf8.width (chars ps) + Utf8.width blanks)) := by
    rw [scan_cons, hc, h.bad.lexeme_eq]
    rfl
  rw [h.cuts.scan_eq, scan_blanks _ _ h.blank, hscan, Utf8.width_append, Nat.add_assoc]
  rfl

theorem Breaks.splits {ps : List Piece} {text blanks bad : List Char} {fault : Fault}
    (h : Breaks ps text blanks bad fault) : Splits ps (chars ps ++ blanks) blanks :=
  ⟨h.cuts.of_append, h.blank⟩

/-! ## The tokens of a source -/

theorem width_eq_utf8ByteSize (cs : List Char) :
    Utf8.width cs = (String.ofList cs).utf8ByteSize := by
  rw [String.utf8ByteSize_ofList]
  induction cs with
  | nil => rfl
  | cons c cs ih => simp [String.utf8Len_cons, ih, Nat.add_comm]

theorem isValid_width {source : String} {before after : List Char}
    (h : source.toList = before ++ after) :
    (⟨Utf8.width before⟩ : String.Pos.Raw).IsValid source := by
  refine String.Pos.Raw.isValid_iff_exists_append.2
    ⟨String.ofList before, String.ofList after, ?_, ?_⟩
  · rw [← String.ofList_append, ← h, String.ofList_toList]
  · rw [width_eq_utf8ByteSize]
    rfl

theorem Splits.tokenize_eq {source : String} {ps : List Piece} {blanks : List Char}
    (h : Splits ps source.toList blanks) :
    tokenize source = .ok ⟨located 0 ps, source.utf8ByteSize⟩ := by
  rw [tokenize, h.scan_eq, Nat.zero_add, width_eq_utf8ByteSize, String.ofList_toList]

theorem Breaks.tokenize_eq {source : String} {ps : List Piece} {blanks bad : List Char}
    {fault : Fault} (h : Breaks ps source.toList blanks bad fault) :
    tokenize source = .error (fault.at (Utf8.width (chars ps ++ blanks))) := by
  rw [tokenize, h.scan_eq, Nat.zero_add]

/-- A lexeme has its token at the byte where it starts, and starts and ends between characters. -/
theorem Cuts.boundaries {source : String} {before after : List Piece} {p : Piece}
    {last : List Char} (h : Cuts (before ++ p :: after) source.toList last) :
    (located 0 (before ++ p :: after))[before.length]? =
        some ⟨p.token, Utf8.width (chars before ++ p.blanks)⟩ ∧
      (⟨Utf8.width (chars before ++ p.blanks)⟩ : String.Pos.Raw).IsValid source ∧
      (⟨Utf8.width (chars before ++ p.blanks ++ p.text)⟩ : String.Pos.Raw).IsValid source := by
  have hstart : source.toList = chars before ++ p.blanks ++ (p.text ++ (chars after ++ last)) := by
    simp [h.eq_append, chars_append]
  have hend : source.toList = chars before ++ p.blanks ++ p.text ++ (chars after ++ last) := by
    rw [hstart]
    simp
  refine ⟨?_, isValid_width hstart, isValid_width hend⟩
  simpa using located_middle 0 before after p

/-- A source that breaks starts with one that has the tokens found so far, and behind it no lexeme
starts. -/
theorem Breaks.exists_start {source : String} {ps : List Piece} {blanks bad : List Char}
    {fault : Fault} (h : Breaks ps source.toList blanks bad fault) :
    ∃ start, source = start ++ String.ofList bad ∧
      start.utf8ByteSize = Utf8.width (chars ps ++ blanks) ∧
      tokenize start = .ok ⟨located 0 ps, start.utf8ByteSize⟩ ∧
      ∀ text token after, bad = text ++ after → ¬ IsLexeme text token after := by
  have hsplits : Splits ps (String.ofList (chars ps ++ blanks)).toList blanks := by
    rw [String.toList_ofList]
    exact h.splits
  refine ⟨_, ?_, (width_eq_utf8ByteSize _).symm, hsplits.tokenize_eq, ?_⟩
  · rw [← String.ofList_append, List.append_assoc, ← h.cuts.eq_append, String.ofList_toList]
  · rintro text token after rfl
    exact h.bad.not_isLexeme

/-- **The tokens of a source are its lexemes.** A source has tokens just when it is a row of lexemes
with blanks between them, and these are its tokens; there is one such row at most. Otherwise the
error is about the place where the row breaks off. -/
theorem tokenize_exact (source : String) :
    (∀ ts, tokenize source = .ok ts ↔
      ∃ ps blanks, Splits ps source.toList blanks ∧ ts = ⟨located 0 ps, source.utf8ByteSize⟩) ∧
    (∀ e, tokenize source = .error e ↔
      ∃ ps blanks bad fault, Breaks ps source.toList blanks bad fault ∧
        e = fault.at (Utf8.width (chars ps ++ blanks))) ∧
    (∀ ps ps' blanks blanks', Splits ps source.toList blanks → Splits ps' source.toList blanks' →
      ps = ps' ∧ blanks = blanks') ∧
    (∀ before p after last, Cuts (before ++ p :: after) source.toList last →
      (located 0 (before ++ p :: after))[before.length]? =
        some ⟨p.token, Utf8.width (chars before ++ p.blanks)⟩ ∧
      (⟨Utf8.width (chars before ++ p.blanks)⟩ : String.Pos.Raw).IsValid source ∧
      (⟨Utf8.width (chars before ++ p.blanks ++ p.text)⟩ : String.Pos.Raw).IsValid source) ∧
    ∀ ps blanks bad fault, Breaks ps source.toList blanks bad fault →
      ∃ start, source = start ++ String.ofList bad ∧
        start.utf8ByteSize = Utf8.width (chars ps ++ blanks) ∧
        tokenize start = .ok ⟨located 0 ps, start.utf8ByteSize⟩ ∧
        ∀ text token after, bad = text ++ after → ¬ IsLexeme text token after := by
  refine ⟨fun ts ↦ ⟨fun hts ↦ ?_, ?_⟩, fun e ↦ ⟨fun he ↦ ?_, ?_⟩, ?_, ?_, ?_⟩
  · rcases splits_or_breaks source.toList with ⟨ps, blanks, h⟩ | ⟨ps, blanks, bad, fault, h⟩
    · rw [h.tokenize_eq] at hts
      exact ⟨ps, blanks, h, (Except.ok.inj hts).symm⟩
    · rw [h.tokenize_eq] at hts
      cases hts
  · rintro ⟨ps, blanks, h, rfl⟩
    exact h.tokenize_eq
  · rcases splits_or_breaks source.toList with ⟨ps, blanks, h⟩ | ⟨ps, blanks, bad, fault, h⟩
    · rw [h.tokenize_eq] at he
      cases he
    · rw [h.tokenize_eq] at he
      exact ⟨ps, blanks, bad, fault, h, (Except.error.inj he).symm⟩
  · rintro ⟨ps, blanks, bad, fault, h, rfl⟩
    exact h.tokenize_eq
  · intro ps ps' blanks blanks' h h'
    exact h.unique h'
  · intro before p after last h
    exact h.boundaries
  · intro ps blanks bad fault h
    exact h.exists_start

/-- A global and a blank, and then a character that starts no lexeme. -/
theorem tokenize_exact_question :
    Breaks [⟨[], "$res".toList, .global .res⟩] "$res ?".toList [' '] ['?'] (.unexpected '?') ∧
      tokenize "$res ?" = .error (.unexpectedChar '?' 5) ∧
      ∃ start, "$res ?" = start ++ "?" ∧ tokenize start = .ok ⟨[⟨.global .res, 0⟩], 5⟩ := by
  have hrun : IsRun isAlphabetic "res".toList [' ', '?'] := .of_all (by decide) (by decide)
  have hglobal : IsLexeme "$res".toList (.global .res) [' ', '?'] :=
    .keyword (.inl rfl) hrun (by decide)
  have hbreaks : Breaks [⟨[], "$res".toList, .global .res⟩] "$res ?".toList [' '] ['?']
      (.unexpected '?') :=
    ⟨.cons (by simp) hglobal .nil, by simp; decide,
      .unexpected (by decide) (by decide) (by decide) (by decide)⟩
  obtain ⟨-, herror, -, -, hprefix⟩ := tokenize_exact "$res ?"
  obtain ⟨start, hsource, hsize, hstart, -⟩ := hprefix _ _ _ _ hbreaks
  refine ⟨hbreaks, (herror _).2 ⟨_, _, _, _, hbreaks, rfl⟩, start, hsource, ?_⟩
  rw [hstart, hsize]
  rfl

end CallCheck.Expr

import CallCheck.Proofs.Json.Writing
import CallCheck.Proofs.Text.Filling

/-!
# Filling templates in JSON text

A document's compact text is filled as if it were plain text: whatever stands between doubled braces
is a slot, also across the ends of strings, and what is put in is not escaped.

## Main statements

`Json.exists_written_fill`: as long as each slot that is filled stands within one string, and
what is put in can stand in a string as it is, the parts of the text stay what they are, but for
what the strings say. `Json.fill_written`: if besides every slot at all stands within one string,
and stands for the escaped form of what it stands for without the escapes, then each string says
what filling it on its own makes of it.
-/

namespace CallCheck.Json

open Text.Template

variable {known : String → Option String}

/-! ## Escapes and braces -/

/-- An opening or a closing brace. -/
def IsBrace (c : Char) : Prop := c = '\x7b' ∨ c = '\x7d'

theorem eq_of_mem_escape {b c : Char} (hb : IsBrace b) (hmem : b ∈ escape c) : c = b := by
  rcases escape_cases c with ⟨e, hescape, -, he, -⟩ | ⟨hescape, -⟩
  · rw [hescape] at hmem
    rcases List.mem_cons.1 hmem with rfl | hmem
    · rcases hb with hb | hb <;> cases hb
    · obtain ⟨hopen, hclose⟩ := he b hmem
      rcases hb with hb | hb
      · exact absurd hb hopen
      · exact absurd hb hclose
  · rw [hescape] at hmem
    exact (List.mem_singleton.1 hmem).symm

theorem IsBrace.escape_eq {b : Char} (hb : IsBrace b) : escape b = [b] := by
  rcases hb with rfl | rfl <;> rfl

theorem exists_escape_eq (c : Char) : ∃ a e, escape c = a :: e ∧ '\x7b' ∉ e := by
  rcases escape_cases c with ⟨e, hescape, -, hbraces, -⟩ | ⟨hescape, -⟩
  · exact ⟨'\\', e, hescape, fun hmem ↦ (hbraces _ hmem).1 rfl⟩
  · exact ⟨c, [], hescape, List.not_mem_nil⟩

/-! ## Text that can stand in a string -/

/-- Text that can stand in a string as it is: it is the escaped form of some text. -/
def IsEscaped (cs : List Char) : Prop := ∃ s : List Char, cs = s.flatMap escape

theorem escape_append_inj {c d : Char} {cs ds : List Char}
    (h : escape c ++ cs = escape d ++ ds) : c = d ∧ cs = ds := by
  have hcd : c = d := by
    rcases escape_cases c with ⟨e, hc, -, -, hread⟩ | ⟨hc, hplain⟩ <;>
      rcases escape_cases d with ⟨e', hd, -, -, hread'⟩ | ⟨hd, hplain'⟩ <;>
      rw [hc, hd] at h
    · have hunescape := hread cs
      have htail : e ++ cs = e' ++ ds := List.tail_eq_of_cons_eq h
      rw [htail, hread'] at hunescape
      exact (congrArg Prod.fst (Option.some.inj hunescape)).symm
    · exact absurd (List.head_eq_of_cons_eq h).symm hplain'.2.1
    · exact absurd (List.head_eq_of_cons_eq h) hplain.2.1
    · exact List.head_eq_of_cons_eq h
  subst hcd
  exact ⟨rfl, List.append_cancel_left h⟩

theorem escape_append_ne_quote (c : Char) (cs ds : List Char) : escape c ++ cs ≠ '"' :: ds := by
  intro h
  rcases escape_cases c with ⟨e, hc, -⟩ | ⟨hc, hplain⟩
  · rw [hc] at h
    cases List.head_eq_of_cons_eq h
  · rw [hc] at h
    exact hplain.1 (List.head_eq_of_cons_eq h)

theorem exists_of_flatMap_escape_append {s u rest tail : List Char}
    (h : s.flatMap escape ++ '"' :: rest = u.flatMap escape ++ tail) :
    ∃ s', s = u ++ s' ∧ tail = s'.flatMap escape ++ '"' :: rest := by
  induction u generalizing s with
  | nil => exact ⟨s, rfl, h.symm⟩
  | cons c u ih =>
    rw [List.flatMap_cons, List.append_assoc] at h
    cases s with
    | nil => exact absurd h.symm (escape_append_ne_quote _ _ _)
    | cons d s =>
      rw [List.flatMap_cons, List.append_assoc] at h
      obtain ⟨rfl, hrest⟩ := escape_append_inj h
      obtain ⟨s', rfl, htail⟩ := ih hrest
      exact ⟨s', rfl, htail⟩

theorem flatMap_escape_inj {s u : List Char} (h : s.flatMap escape = u.flatMap escape) :
    s = u := by
  have hs := takeString?_flatMap_escape s []
  rw [h, takeString?_flatMap_escape] at hs
  exact (congrArg Prod.fst (Option.some.inj hs)).symm

theorem not_isEscaped_append_quote (s rest : List Char) :
    ¬IsEscaped (s.flatMap escape ++ '"' :: rest) := by
  rintro ⟨u, h⟩
  rw [← List.append_nil (u.flatMap escape)] at h
  obtain ⟨s', -, hnil⟩ := exists_of_flatMap_escape_append h
  cases (List.append_eq_nil_iff.1 hnil.symm).2

theorem head?_flatMap_escape {b : Char} (hb : IsBrace b) {cs rest : List Char}
    (h : (cs.flatMap escape ++ '"' :: rest).head? = some b) : cs.head? = some b := by
  cases cs with
  | nil =>
    obtain rfl : '"' = b := Option.some.inj h
    rcases hb with hb | hb <;> cases hb
  | cons c cs =>
    have hmem : b ∈ escape c := by
      rw [List.flatMap_cons, List.append_assoc] at h
      rcases escape_cases c with ⟨e, hescape, -⟩ | ⟨hescape, -⟩
      · rw [hescape] at h ⊢
        obtain rfl := Option.some.inj h
        exact List.mem_cons_self
      · rw [hescape] at h ⊢
        obtain rfl := Option.some.inj h
        exact List.mem_cons_self
    exact congrArg some (eq_of_mem_escape hb hmem)

/-! ## Cutting and filling what is escaped -/

section Escaped

variable {c : Char} {cs rest : List Char}

theorem cutPair_escape_append {b : Char} (hb : IsBrace b) (h : ¬(c = b ∧ cs.head? = some b)) :
    cutPair b (escape c ++ (cs.flatMap escape ++ '"' :: rest)) =
      (cutPair b (cs.flatMap escape ++ '"' :: rest)).map fun (before, after) ↦
        (escape c ++ before, after) := by
  by_cases hc : c = b
  · subst hc
    rw [hb.escape_eq, List.singleton_append,
      cutPair_cons fun hpair ↦ h ⟨rfl, head?_flatMap_escape hb hpair.2⟩]
    rfl
  · exact cutPair_append (fun hmem ↦ hc (eq_of_mem_escape hb hmem)) _

/-- What is escaped is cut where it would be without the escapes, or else beyond the quote. -/
theorem cutPair_flatMap_escape {b : Char} (hb : IsBrace b) (cs rest : List Char) :
    cutPair b (cs.flatMap escape ++ '"' :: rest) =
      match cutPair b cs with
      | some (before, after) =>
        some (before.flatMap escape, after.flatMap escape ++ '"' :: rest)
      | none => (cutPair b rest).map fun (before, after) ↦
          (cs.flatMap escape ++ '"' :: before, after) := by
  induction cs with
  | nil =>
    have hquote : ¬('"' = b ∧ rest.head? = some b) := by
      rintro ⟨rfl, -⟩
      rcases hb with hb | hb <;> cases hb
    exact cutPair_cons hquote
  | cons c cs ih =>
    by_cases hpair : c = b ∧ cs.head? = some b
    · obtain ⟨rfl, hhead⟩ := hpair
      obtain ⟨cs, rfl⟩ := List.head?_eq_some_iff.1 hhead
      rw [cutPair_pair, List.flatMap_cons, List.flatMap_cons, hb.escape_eq]
      exact cutPair_pair c _
    · rw [List.flatMap_cons, List.append_assoc, cutPair_escape_append hb hpair, ih,
        cutPair_cons hpair]
      cases cutPair b cs with
      | some cut => rfl
      | none =>
        dsimp only
        rw [Option.map_map]
        refine congrArg (Option.map · _) ?_
        funext ⟨before, after⟩
        exact Prod.ext (List.append_assoc _ _ _).symm rfl

theorem fill_escape_append (known : String → Option String) (rest : List Char)
    (h : ¬(c = '\x7b' ∧ cs.head? = some '\x7b')) :
    fill known (escape c ++ (cs.flatMap escape ++ '"' :: rest)) =
        escape c ++ fill known (cs.flatMap escape ++ '"' :: rest) ∧
      slots (escape c ++ (cs.flatMap escape ++ '"' :: rest)) =
        slots (cs.flatMap escape ++ '"' :: rest) := by
  by_cases hc : c = '\x7b'
  · subst hc
    have hpair : ¬('\x7b' = '\x7b' ∧ (cs.flatMap escape ++ '"' :: rest).head? = some '\x7b') :=
      fun hpair ↦ h ⟨rfl, head?_flatMap_escape (.inl rfl) hpair.2⟩
    exact ⟨fill_cons hpair, slots_cons hpair⟩
  · have hmem : '\x7b' ∉ escape c := fun hmem ↦ hc (eq_of_mem_escape (.inl rfl) hmem)
    exact ⟨fill_append hmem _, slots_append hmem _⟩

end Escaped

/-! ## Strings that are filled one by one -/

/-- The escaped form of a text. -/
def escaped (s : String) : String := String.ofList (s.toList.flatMap escape)

/-- Every slot of a text stands within one string, and what it stands for is the escaped form of
what it stands for without the escapes. -/
def Tame (known : String → Option String) (cs : List Char) : Prop :=
  ∀ body ∈ slots cs, ∃ s : List Char, body = s.flatMap escape ∧
    known (String.ofList body) = (known (String.ofList s)).map escaped

theorem filler_flatMap_escape {body : List Char}
    (h : known (String.ofList (body.flatMap escape)) = (known (String.ofList body)).map escaped) :
    filler known (body.flatMap escape) = (filler known body).flatMap escape := by
  rw [filler, filler, Piece.expand, Piece.expand, h]
  cases known (String.ofList body) with
  | some value => exact String.toList_ofList
  | none =>
    change '\x7b' :: '\x7b' :: (body.flatMap escape ++ ['\x7d', '\x7d']) =
      '\x7b' :: '\x7b' :: (body ++ ['\x7d', '\x7d']).flatMap escape
    rw [List.flatMap_append]
    rfl

/-- Braces that are opened in a string and not closed there are not closed at all: a slot would
reach beyond the quote. -/
theorem fill_quoted_unclosed {inside rest : List Char} (hclose : cutPair '\x7d' inside = none)
    (h : Tame known ('\x7b' :: '\x7b' :: (inside.flatMap escape ++ '"' :: rest))) :
    fill known ('\x7b' :: '\x7b' :: (inside.flatMap escape ++ '"' :: rest)) =
        '\x7b' :: '\x7b' :: (inside.flatMap escape ++ '"' :: fill known rest) ∧
      Tame known rest := by
  have hcut := cutPair_flatMap_escape (b := '\x7d') (.inr rfl) inside rest
  rw [hclose] at hcut
  dsimp only at hcut
  cases hrest : cutPair '\x7d' rest with
  | none =>
    rw [hrest] at hcut
    obtain ⟨hfill, hslots⟩ := fill_of_cutPair_none known hrest
    rw [fill_unclosed hcut, hfill, Tame, hslots]
    exact ⟨rfl, List.forall_mem_nil _⟩
  | some cut =>
    obtain ⟨before, after⟩ := cut
    rw [hrest] at hcut
    rw [Tame, slots_slot hcut] at h
    obtain ⟨⟨u, hbody, -⟩, -⟩ := List.forall_mem_cons.1 h
    exact absurd ⟨u, hbody⟩ (not_isEscaped_append_quote inside before)

theorem fill_quoted (s rest : List Char) (h : Tame known (s.flatMap escape ++ '"' :: rest)) :
    fill known (s.flatMap escape ++ '"' :: rest) =
        (fill known s).flatMap escape ++ '"' :: fill known rest ∧ Tame known rest := by
  induction s using scan_induction with
  | nil =>
    have hquote : ¬('"' = '\x7b' ∧ rest.head? = some '\x7b') := fun hquote ↦ by cases hquote.1
    rw [List.flatMap_nil, List.nil_append] at h ⊢
    rw [Tame, slots_cons hquote] at h
    rw [fill_cons hquote, fill_nil]
    exact ⟨rfl, h⟩
  | keep c s hpair ih =>
    obtain ⟨hfill, hslots⟩ := fill_escape_append known rest hpair
    rw [List.flatMap_cons, List.append_assoc] at h ⊢
    rw [Tame, hslots] at h
    obtain ⟨heq, hrest⟩ := ih h
    rw [hfill, fill_cons hpair, heq, List.flatMap_cons, List.append_assoc]
    exact ⟨rfl, hrest⟩
  | slot inside body after hclose ih =>
    have hcut := cutPair_flatMap_escape (b := '\x7d') (.inr rfl) inside rest
    rw [hclose] at hcut
    have htext : ('\x7b' :: '\x7b' :: inside).flatMap escape ++ '"' :: rest =
        '\x7b' :: '\x7b' :: (inside.flatMap escape ++ '"' :: rest) := rfl
    rw [htext] at h ⊢
    rw [Tame, slots_slot hcut] at h
    obtain ⟨⟨u, hbody, hknown⟩, hafter⟩ := List.forall_mem_cons.1 h
    obtain rfl := flatMap_escape_inj hbody
    obtain ⟨heq, hrest⟩ := ih hafter
    rw [fill_slot hcut, fill_slot hclose, heq, List.flatMap_append, filler_flatMap_escape hknown,
      List.append_assoc]
    exact ⟨rfl, hrest⟩
  | unclosed inside hclose =>
    rw [fill_unclosed hclose]
    exact fill_quoted_unclosed hclose h

theorem head?_written {ps : List Part} {c : Char} (h : (written ps).head? = some c)
    (hc : c ≠ '"') : ps.head? = some (.char c) := by
  cases ps with
  | nil => cases h
  | cons p ps =>
    cases p with
    | char a => exact congrArg (some ∘ Part.char) (Option.some.inj h)
    | quoted s => exact absurd (Option.some.inj h).symm hc

theorem written_quoted (s : String) (ps : List Part) :
    written (.quoted s :: ps) = '"' :: (s.toList.flatMap escape ++ '"' :: written ps) := by
  rw [written_cons, Part.write, writeString, List.cons_append, List.append_assoc]
  rfl

/-- **Each string is filled on its own.** -/
theorem fill_written {ps : List Part} (hps : Sound ps) (h : Tame known (written ps)) :
    fill known (written ps) = written (ps.map (Part.map (expand known))) := by
  induction hps with
  | nil => exact fill_nil
  | @quoted s ps hps ih =>
    have hquote (cs : List Char) : ¬('"' = '\x7b' ∧ cs.head? = some '\x7b') :=
      fun hquote ↦ by cases hquote.1
    rw [written_quoted, Tame, slots_cons (hquote _)] at h
    obtain ⟨heq, hrest⟩ := fill_quoted s.toList (written ps) h
    rw [written_quoted, fill_cons (hquote _), heq, ih hrest, List.map_cons, Part.map,
      written_quoted, expand_eq, String.toList_ofList]
  | @char c ps hquote hbrace hps ih =>
    have hpair : ¬(c = '\x7b' ∧ (written ps).head? = some '\x7b') := fun hpair ↦ hbrace hpair.1
    rw [written_cons, Part.write, List.singleton_append] at h ⊢
    rw [Tame, slots_cons hpair] at h
    rw [fill_cons hpair, ih h, List.map_cons, written_cons]
    rfl
  | @brace ps hhead hps ih =>
    have hpair : ¬('\x7b' = '\x7b' ∧ (written ps).head? = some '\x7b') :=
      fun hpair ↦ hhead (head?_written hpair.2 (by decide))
    rw [written_cons, Part.write, List.singleton_append] at h ⊢
    rw [Tame, slots_cons hpair] at h
    rw [fill_cons hpair, ih h, List.map_cons, written_cons]
    rfl

/-! ## Parts that stay what they are -/

/-- The same parts, but for what the strings say. -/
def SameOutside (ps qs : List Part) : Prop :=
  ps.map (Part.map fun _ ↦ "") = qs.map (Part.map fun _ ↦ "")

theorem head?_map_eq_char {ps : List Part} (f : String → String) (c : Char) :
    (ps.map (Part.map f)).head? = some (.char c) ↔ ps.head? = some (.char c) := by
  cases ps with
  | nil => exact Iff.rfl
  | cons p ps =>
    cases p with
    | char a => exact Iff.rfl
    | quoted s =>
      constructor
      · intro h
        cases Option.some.inj h
      · intro h
        cases Option.some.inj h

theorem Sound.map {ps : List Part} (h : Sound ps) (f : String → String) :
    Sound (ps.map (Part.map f)) := by
  induction h with
  | nil => exact .nil
  | quoted s h ih => exact .quoted (f s) ih
  | char hquote hbrace h ih => exact .char hquote hbrace ih
  | brace hhead h ih => exact .brace (mt (head?_map_eq_char f _).1 hhead) ih

theorem Sound.of_map {f : String → String} (ps : List Part) (h : Sound (ps.map (Part.map f))) :
    Sound ps := by
  induction ps with
  | nil => exact .nil
  | cons p ps ih =>
    cases p with
    | quoted s =>
      cases h with
      | quoted _ h => exact .quoted s (ih h)
    | char c =>
      cases h with
      | char hquote hbrace h => exact .char hquote hbrace (ih h)
      | brace hhead h => exact .brace (mt (head?_map_eq_char f _).2 hhead) (ih h)

theorem SameOutside.sound {ps qs : List Part} (h : SameOutside ps qs) (hps : Sound ps) :
    Sound qs := by
  refine Sound.of_map (f := fun _ ↦ "") qs ?_
  rw [← h]
  exact hps.map _

/-- Parts that differ in what the strings say are read as documents that differ in their strings. -/
theorem SameOutside.read?_skeleton {ps qs : List Part} (h : SameOutside ps qs) (hps : Sound ps) :
    (read? (String.ofList (written qs))).map skeleton =
      (read? (String.ofList (written ps))).map skeleton := by
  rw [skeleton, ← read?_written_map _ hps.not_mem, ← read?_written_map _ (h.sound hps).not_mem, h]

/-- A slot that stands within one string is filled with what can stand in a string. -/
def FilledInside : List Char → List Char → Prop :=
  Filled fun body value ↦ IsEscaped body ∧ IsEscaped value

/-- One text has the parts of another, but for what the strings say. That is so for whole texts, and
for texts of which the beginning of a string has been read, and maybe the beginning of an escape. -/
structure KeepsParts (cs ds : List Char) : Prop where
  /-- The text starts outside of strings. -/
  outside : ∀ ps, Sound ps → cs = written ps → ∃ qs, SameOutside ps qs ∧ ds = written qs
  /-- The text starts within a string, with the rest of an escape. -/
  inside : ∀ (e s : List Char) ps, '\x7b' ∉ e → Sound ps →
    cs = e ++ (s.flatMap escape ++ '"' :: written ps) →
      ∃ (s' : List Char) (qs : List Part), SameOutside ps qs ∧
        ds = e ++ (s'.flatMap escape ++ '"' :: written qs)

namespace KeepsParts

variable {cs ds : List Char} {ps : List Part}

theorem nil : KeepsParts [] [] where
  outside ps _ hcs := ⟨ps, rfl, hcs⟩
  inside e s ps _ _ hcs := by
    cases (List.append_eq_nil_iff.1 (List.append_eq_nil_iff.1 hcs.symm).2).2

theorem outside_cons (h : KeepsParts cs ds) {c : Char} (hps : Sound ps)
    (hcs : c :: cs = written ps) : ∃ qs, SameOutside ps qs ∧ c :: ds = written qs := by
  cases hps with
  | nil => cases hcs
  | @quoted s ps hps =>
    rw [written_quoted] at hcs
    obtain ⟨rfl, htail⟩ := List.cons.inj hcs
    obtain ⟨s', qs, hsame, rfl⟩ := h.inside [] s.toList ps List.not_mem_nil hps htail
    refine ⟨.quoted (String.ofList s') :: qs, congrArg (Part.quoted "" :: ·) hsame, ?_⟩
    rw [written_quoted, String.toList_ofList]
    rfl
  | @char a ps hquote hbrace hps =>
    obtain ⟨rfl, htail⟩ := List.cons.inj hcs
    obtain ⟨qs, hsame, rfl⟩ := h.outside ps hps htail
    exact ⟨.char c :: qs, congrArg (Part.char c :: ·) hsame, rfl⟩
  | @brace ps hhead hps =>
    obtain ⟨rfl, htail⟩ := List.cons.inj hcs
    obtain ⟨qs, hsame, rfl⟩ := h.outside ps hps htail
    exact ⟨.char '\x7b' :: qs, congrArg (Part.char '\x7b' :: ·) hsame, rfl⟩

/-- A character within a string goes on with an escape, closes the string, or starts what stands for
the next character. -/
theorem inside_cons (h : KeepsParts cs ds) {c : Char} {e s : List Char} (he : '\x7b' ∉ e)
    (hps : Sound ps) (hcs : c :: cs = e ++ (s.flatMap escape ++ '"' :: written ps)) :
    ∃ (s' : List Char) (qs : List Part), SameOutside ps qs ∧
      c :: ds = e ++ (s'.flatMap escape ++ '"' :: written qs) := by
  cases e with
  | cons a e =>
    obtain ⟨rfl, htail⟩ := List.cons.inj hcs
    obtain ⟨s', qs, hsame, rfl⟩ := h.inside e s ps (mt (List.mem_cons_of_mem c) he) hps htail
    exact ⟨s', qs, hsame, rfl⟩
  | nil =>
    cases s with
    | nil =>
      obtain ⟨rfl, htail⟩ := List.cons.inj hcs
      obtain ⟨qs, hsame, rfl⟩ := h.outside ps hps htail
      exact ⟨[], qs, hsame, rfl⟩
    | cons b s =>
      obtain ⟨a, e, hescape, he⟩ := exists_escape_eq b
      rw [List.flatMap_cons, hescape, List.append_assoc] at hcs
      obtain ⟨rfl, htail⟩ := List.cons.inj hcs
      obtain ⟨s', qs, hsame, rfl⟩ := h.inside e s ps he hps htail
      refine ⟨b :: s', qs, hsame, ?_⟩
      rw [List.flatMap_cons, hescape, List.append_assoc]
      rfl

theorem cons (h : KeepsParts cs ds) (c : Char) : KeepsParts (c :: cs) (c :: ds) :=
  ⟨fun _ hps ↦ h.outside_cons hps, fun _ _ _ he hps ↦ h.inside_cons he hps⟩

theorem not_written_of_braces (hps : Sound ps) : '\x7b' :: '\x7b' :: cs ≠ written ps := by
  intro hcs
  cases hps with
  | nil => cases hcs
  | @quoted s ps hps =>
    rw [written_quoted] at hcs
    cases (List.cons.inj hcs).1
  | @char a ps hquote hbrace hps => exact hbrace (List.cons.inj hcs).1.symm
  | @brace ps hhead hps =>
    have hwritten : (written ps).head? = some '\x7b' :=
      congrArg List.head? (List.cons.inj hcs).2.symm
    exact hhead (head?_written hwritten (by decide))

theorem slot (h : KeepsParts cs ds) (u v : List Char) :
    KeepsParts ('\x7b' :: '\x7b' :: (u.flatMap escape ++ '\x7d' :: '\x7d' :: cs))
      (v.flatMap escape ++ ds) where
  outside ps hps hcs := absurd hcs (not_written_of_braces hps)
  inside e s ps he hps hcs := by
    cases e with
    | cons a e => exact absurd ((List.cons.inj hcs).1 ▸ List.mem_cons_self) he
    | nil =>
      have hslot : '\x7b' :: '\x7b' :: (u.flatMap escape ++ '\x7d' :: '\x7d' :: cs) =
          ('\x7b' :: '\x7b' :: (u ++ ['\x7d', '\x7d'])).flatMap escape ++ cs := by
        rw [List.flatMap_cons, List.flatMap_cons, List.flatMap_append, List.append_assoc,
          List.append_assoc, List.append_assoc]
        rfl
      rw [hslot, List.nil_append] at hcs
      obtain ⟨s', -, htail⟩ := exists_of_flatMap_escape_append hcs.symm
      obtain ⟨s'', qs, hsame, rfl⟩ := h.inside [] s' ps List.not_mem_nil hps htail
      refine ⟨v ++ s'', qs, hsame, ?_⟩
      rw [List.flatMap_append, List.append_assoc]
      rfl

end KeepsParts

/-- **Run lemma.** Filling slots that stand within a string leaves the parts of a text what they
are. -/
theorem keepsParts_of_filled {cs ds : List Char} (h : FilledInside cs ds) : KeepsParts cs ds := by
  induction h with
  | nil => exact .nil
  | @keep c cs ds h ih => exact ih.cons c
  | @slot body value cs ds hallowed h ih =>
    obtain ⟨⟨u, rfl⟩, v, rfl⟩ := hallowed
    exact ih.slot u v

/-- Every slot that is filled stands within one string, and what it is filled with can stand in a
string as it is. -/
def StaysInside (known : String → Option String) (cs : List Char) : Prop :=
  ∀ body ∈ slots cs, ∀ value, known (String.ofList body) = some value →
    IsEscaped body ∧ IsEscaped value.toList

/-- **Filling changes nothing but what strings say.** -/
theorem exists_written_fill {ps : List Part} (hps : Sound ps)
    (h : StaysInside known (written ps)) :
    ∃ qs, SameOutside ps qs ∧ fill known (written ps) = written qs :=
  (keepsParts_of_filled (filled_fill h)).outside ps hps rfl

end CallCheck.Json

import CallCheck.Call.Data
import CallCheck.Proofs.Text.Filling
import Mathlib.Data.List.Infix

/-!
# Where a template is cut

The parts of a text, told by where pairs of braces stand and not by how the text is scanned: a slot
is between the first opening pair and the first closing pair behind it, a literal is what stands
before, and an opening pair with no closing pair behind it begins the last literal. Every text has
one row of parts.

## Main statement

`substitution_of_parts`: filling keeps the literals and the unknown slots, and puts a value in the
place of every other slot. So it changes nothing where nothing is known, and it may be done to two
texts apart if no slot reaches from one into the other. Names are looked up once for each slot that
does not start with a dot, in order, and for nothing else.
-/

namespace CallCheck.Text.Template

variable {c : Char} {cs before inside body after p q : List Char} {ps qs : List Piece}

/-! ## Pairs -/

/-- A character stands twice in a row somewhere. -/
def HasPair (c : Char) (cs : List Char) : Prop := [c, c] <:+: cs

/-- The first place where a character stands twice in a row: what is before it, and what after. -/
structure FirstPair (c : Char) (cs before after : List Char) : Prop where
  eq : cs = before ++ c :: c :: after
  first : ¬HasPair c (before ++ [c])

theorem hasPair_cons {a : Char} :
    HasPair c (a :: cs) ↔ (a = c ∧ cs.head? = some c) ∨ HasPair c cs := by
  rw [HasPair, List.infix_cons_iff, List.cons_prefix_cons, ← HasPair]
  cases cs with
  | nil => simp
  | cons b cs => simp [List.cons_prefix_cons, eq_comm]

theorem not_hasPair_nil : ¬HasPair c [] := by simp [HasPair]

theorem hasPair_append : HasPair c (before ++ c :: c :: after) :=
  ⟨before, after, by simp⟩

theorem cutPair_eq_none_iff : cutPair c cs = none ↔ ¬HasPair c cs := by
  induction cs with
  | nil => exact iff_of_true rfl not_hasPair_nil
  | cons a cs ih =>
    by_cases hpair : a = c ∧ cs.head? = some c
    · obtain ⟨rfl, hhead⟩ := hpair
      obtain ⟨rest, rfl⟩ := List.head?_eq_some_iff.1 hhead
      rw [cutPair_pair]
      exact iff_of_false nofun (not_not_intro (hasPair_cons.2 (.inl ⟨rfl, rfl⟩)))
    · rw [cutPair_cons hpair, Option.map_eq_none_iff, ih, hasPair_cons, or_iff_right hpair]

theorem FirstPair.cutPair_eq (h : FirstPair c cs before after) :
    cutPair c cs = some (before, after) := by
  obtain ⟨rfl, hfirst⟩ := h
  induction before with
  | nil => exact cutPair_pair c after
  | cons a before ih =>
    rw [List.cons_append, hasPair_cons, not_or] at hfirst
    obtain ⟨hstart, hrest⟩ := hfirst
    have hhead : (before ++ c :: c :: after).head? = (before ++ [c]).head? := by
      cases before <;> rfl
    rw [List.cons_append, cutPair_cons (by rwa [hhead]), ih hrest]
    rfl

theorem firstPair_of_cutPair (h : cutPair c cs = some (before, after)) :
    FirstPair c cs before after := by
  refine ⟨eq_of_cutPair h, ?_⟩
  induction cs generalizing before with
  | nil => cases h
  | cons a cs ih =>
    by_cases hpair : a = c ∧ cs.head? = some c
    · obtain ⟨rfl, hhead⟩ := hpair
      obtain ⟨rest, rfl⟩ := List.head?_eq_some_iff.1 hhead
      rw [cutPair_pair] at h
      cases h
      simp [hasPair_cons, not_hasPair_nil]
    · rw [cutPair_cons hpair] at h
      obtain ⟨⟨before', after'⟩, hcut, heq⟩ := Option.map_eq_some_iff.1 h
      obtain ⟨rfl, rfl⟩ := Prod.mk.inj heq
      have hhead : (before' ++ [c]).head? = cs.head? := by
        rw [eq_of_cutPair hcut]
        cases before' <;> rfl
      rw [List.cons_append, hasPair_cons, hhead]
      exact not_or.2 ⟨hpair, ih hcut⟩

theorem cutPair_eq_some_iff : cutPair c cs = some (before, after) ↔ FirstPair c cs before after :=
  ⟨firstPair_of_cutPair, FirstPair.cutPair_eq⟩

theorem FirstPair.append (h : FirstPair c cs before after) (q : List Char) :
    FirstPair c (cs ++ q) before (after ++ q) :=
  ⟨by rw [h.eq]; simp, h.first⟩

/-! ## Parts -/

/-- The parts of a text from left to right. -/
inductive Parts : List Char → List Piece → Prop
  /-- No pair opens. -/
  | plain {cs : List Char} : ¬HasPair '{' cs → Parts cs [.literal cs]
  /-- The first pair that opens is never closed. -/
  | unclosed {cs before inside : List Char} :
      FirstPair '{' cs before inside → ¬HasPair '}' inside →
      Parts cs [.literal before, .literal ('{' :: '{' :: inside)]
  /-- The first pair that opens is closed by the first pair behind it that closes. -/
  | slot {cs before inside body after : List Char} {ps : List Piece} :
      FirstPair '{' cs before inside → FirstPair '}' inside body after → Parts after ps →
      Parts cs (.literal before :: .slot body :: ps)

theorem exists_parts (cs : List Char) : ∃ ps, Parts cs ps := by
  fun_induction pieces cs with
  | case1 cs hopen => exact ⟨_, .plain (cutPair_eq_none_iff.1 hopen)⟩
  | case2 cs before inside hopen hclose =>
    exact ⟨_, .unclosed (cutPair_eq_some_iff.1 hopen) (cutPair_eq_none_iff.1 hclose)⟩
  | case3 cs before inside hopen body after hclose ih =>
    obtain ⟨ps, hps⟩ := ih
    exact ⟨_, .slot (cutPair_eq_some_iff.1 hopen) (cutPair_eq_some_iff.1 hclose) hps⟩

theorem FirstPair.hasPair (h : FirstPair c cs before after) : HasPair c cs :=
  h.eq ▸ hasPair_append

theorem FirstPair.unique {before' after' : List Char} (h : FirstPair c cs before after)
    (h' : FirstPair c cs before' after') : before = before' ∧ after = after' := by
  have heq := h.cutPair_eq.symm.trans h'.cutPair_eq
  exact Prod.mk.inj (Option.some.inj heq)

/-- **A text has one row of parts.** -/
theorem Parts.unique (h : Parts cs ps) (h' : Parts cs qs) : ps = qs := by
  induction h generalizing qs with
  | plain hnone =>
    cases h' with
    | plain => rfl
    | unclosed hopen => exact absurd hopen.hasPair hnone
    | slot hopen => exact absurd hopen.hasPair hnone
  | unclosed hopen hnone =>
    cases h' with
    | plain hnone' => exact absurd hopen.hasPair hnone'
    | unclosed hopen' =>
      obtain ⟨rfl, rfl⟩ := hopen.unique hopen'
      rfl
    | slot hopen' hclose' =>
      obtain ⟨rfl, rfl⟩ := hopen.unique hopen'
      exact absurd hclose'.hasPair hnone
  | slot hopen hclose _ ih =>
    cases h' with
    | plain hnone' => exact absurd hopen.hasPair hnone'
    | unclosed hopen' hnone' =>
      obtain ⟨rfl, rfl⟩ := hopen.unique hopen'
      exact absurd hclose.hasPair hnone'
    | slot hopen' hclose' hrest' =>
      obtain ⟨rfl, rfl⟩ := hopen.unique hopen'
      obtain ⟨rfl, rfl⟩ := hclose.unique hclose'
      rw [ih hrest']

theorem Parts.source_eq (h : Parts cs ps) : ps.flatMap Piece.source = cs := by
  induction h with
  | plain => simp [Piece.source]
  | unclosed hopen => simp [Piece.source, hopen.eq]
  | slot hopen hclose _ ih => simp [Piece.source, ih, hopen.eq, hclose.eq]

theorem Parts.fill_eq (h : Parts cs ps) (known : String → Option String) :
    fill known cs = ps.flatMap (Piece.expand known) := by
  induction h with
  | plain hnone =>
    rw [fill, pieces_of_cutPair_none (cutPair_eq_none_iff.2 hnone)]
  | unclosed hopen hnone =>
    rw [fill, pieces_of_unclosed hopen.cutPair_eq (cutPair_eq_none_iff.2 hnone), hopen.eq]
    simp [Piece.expand]
  | slot hopen hclose _ ih =>
    rw [fill, pieces_of_closed hopen.cutPair_eq hclose.cutPair_eq, List.flatMap_cons,
      List.flatMap_cons, List.flatMap_cons, List.flatMap_cons, ← ih, fill]

/-! ## Two texts in a row -/

/-- Every opening pair of a text has a closing pair behind it. -/
def Closed (cs : List Char) : Prop :=
  ∀ before inside, cs = before ++ '{' :: '{' :: inside → HasPair '}' inside

theorem Closed.of_append (h : Closed (p ++ q)) : Closed q :=
  fun before inside heq ↦ h (p ++ before) inside (by rw [heq, List.append_assoc])

/-- **Filling in two steps.** A text in which all pairs are closed and that does not end in a brace
is filled by itself, whatever follows it. -/
theorem fill_append_of_closed (known : String → Option String) (hclosed : Closed p)
    (hend : p.getLast? ≠ some '{') (q : List Char) :
    fill known (p ++ q) = fill known p ++ fill known q := by
  induction p using scan_induction with
  | nil => rw [fill_nil, List.nil_append, List.nil_append]
  | keep c rest hpair ih =>
    have hrest : rest.getLast? ≠ some '{' := by
      intro hlast
      exact hend (by rw [List.getLast?_cons, hlast]; rfl)
    have hpair' : ¬(c = '{' ∧ (rest ++ q).head? = some '{') := by
      rintro ⟨rfl, hhead⟩
      cases rest with
      | nil => exact hend rfl
      | cons b rest => exact hpair ⟨rfl, hhead⟩
    rw [List.cons_append, fill_cons hpair', fill_cons hpair, List.cons_append,
      ih (Closed.of_append (p := [c]) hclosed) hrest]
  | slot inside body after hclose ih =>
    have hfirst := cutPair_eq_some_iff.1 hclose
    have happend := (hfirst.append q).cutPair_eq
    have hsource : '{' :: '{' :: inside = ('{' :: '{' :: (body ++ ['}', '}'])) ++ after := by
      rw [hfirst.eq]
      simp
    have hafter : after.getLast? ≠ some '{' := by
      intro hlast
      exact hend (by rw [hsource, List.getLast?_append, hlast]; rfl)
    rw [hsource] at hclosed
    rw [List.cons_append, List.cons_append, fill_slot happend, fill_slot hclose,
      ih hclosed.of_append hafter, List.append_assoc]
  | unclosed inside hclose =>
    exact absurd (hclosed [] inside rfl) (cutPair_eq_none_iff.1 hclose)

/-! ## What is known of a slot -/

/-- What a slot for a named value stands for, if the name in it does not start with a dot. -/
def named (lookup : String → Option String) (body : List Char) : Option String :=
  if (trimChars body).head? = some '.' then none else lookup (String.ofList (trimChars body))

/-- What a slot for a field stands for, if a dot is before the name in it. -/
def dotted (field : String → Option String) (body : List Char) : Option String :=
  if (trimChars body).head? = some '.' then
    field (String.ofList (trimChars (trimChars body).tail))
  else none

/-- What a part becomes: a slot of which something is known is replaced, all else is kept. -/
def Piece.filled (known : List Char → Option String) : Piece → List Char
  | .literal cs => cs
  | .slot body =>
    match known body with
    | some value => value.toList
    | none => '{' :: '{' :: (body ++ ['}', '}'])

theorem name?_ofList (body : List Char) :
    name? (String.ofList body) =
      if (trimChars body).head? = some '.' then none
      else some (String.ofList (trimChars body)) := by
  rw [name?, String.toList_ofList]
  split
  · rename_i hdot
    rw [hdot, List.head?_cons, if_pos rfl]
  · rename_i hdot
    rw [if_neg]
    intro hhead
    obtain ⟨rest, heq⟩ := List.head?_eq_some_iff.1 hhead
    exact hdot rest heq

theorem field?_ofList (body : List Char) :
    field? (String.ofList body) =
      if (trimChars body).head? = some '.' then
        some (String.ofList (trimChars (trimChars body).tail))
      else none := by
  rw [field?, String.toList_ofList]
  split
  · rename_i hdot
    rw [hdot, List.head?_cons, if_pos rfl, List.tail_cons]
  · rename_i hdot
    rw [if_neg]
    intro hhead
    obtain ⟨rest, heq⟩ := List.head?_eq_some_iff.1 hhead
    exact hdot rest heq

theorem Piece.expand_eq_filled {known : String → Option String}
    {known' : List Char → Option String}
    (h : ∀ body, known (String.ofList body) = known' body) (piece : Piece) :
    piece.expand known = piece.filled known' := by
  cases piece with
  | literal cs => rfl
  | slot body =>
    rw [Piece.expand, h, Piece.filled]
    cases known' body <;> rfl

/-- A function on texts that fills slots with what is known of their bodies. -/
structure Substitutes (known : List Char → Option String) (f : String → String) : Prop where
  /-- Every text has one row of parts, and is written by them. -/
  parts (text : String) :
    ∃ ps, Parts text.toList ps ∧ (∀ qs, Parts text.toList qs → qs = ps) ∧
      text.toList = ps.flatMap Piece.source ∧ (f text).toList = ps.flatMap (Piece.filled known)
  /-- Where nothing is known, nothing changes. -/
  unchanged (text : String) (ps : List Piece) :
    Parts text.toList ps → (∀ body, .slot body ∈ ps → known body = none) → f text = text
  /-- Texts are filled apart if no pair of braces reaches from one into the other. -/
  append (p q : String) :
    Closed p.toList → p.toList.getLast? ≠ some '{' → f (p ++ q) = f p ++ f q

theorem substitutes_expand {known : String → Option String} {known' : List Char → Option String}
    (h : ∀ body, known (String.ofList body) = known' body) :
    Substitutes known' (expand known) := by
  have houtput {text : String} {ps : List Piece} (hps : Parts text.toList ps) :
      (expand known text).toList = ps.flatMap (Piece.filled known') := by
    rw [expand_eq, String.toList_ofList, hps.fill_eq]
    exact congrArg (List.flatMap · ps) (funext (Piece.expand_eq_filled h))
  refine ⟨fun text ↦ ?_, fun text ps hps hunknown ↦ ?_, fun p q hclosed hend ↦ ?_⟩
  · obtain ⟨ps, hps⟩ := exists_parts text.toList
    exact ⟨ps, hps, fun qs hqs ↦ hqs.unique hps, hps.source_eq.symm, houtput hps⟩
  · have hkept : ps.flatMap (Piece.filled known') = ps.flatMap Piece.source := by
      refine List.flatMap_congr fun piece hpiece ↦ ?_
      cases piece with
      | literal cs => rfl
      | slot body =>
        rw [Piece.filled, hunknown body hpiece]
        rfl
    rw [← String.toList_inj, houtput hps, hkept, hps.source_eq]
  · rw [expand_eq, expand_eq, expand_eq, String.toList_append,
      fill_append_of_closed known hclosed hend, String.ofList_append]

/-! ## What is looked up -/

section Effects

variable {m : Type → Type} [Monad m]

/-- A part with its slot filled by what an effect finds under the name in it. -/
def Piece.fillNameM (lookup : String → m (Option String)) : Piece → m (List Char)
  | .literal cs => pure cs
  | .slot body =>
    match name? (String.ofList body) with
    | none => pure (Piece.slot body).source
    | some name => do
      let found ← lookup name
      return (found.map String.toList).getD (Piece.slot body).source

/-- The text with the slots of named values replaced, where looking up a name is an effect. -/
def fillNamesM (lookup : String → m (Option String)) (text : String) : m String := do
  let parts ← (pieces text.toList).mapM (Piece.fillNameM lookup)
  return String.ofList parts.flatten

end Effects

/-- Looking up a name and taking note of it. -/
def recording (lookup : String → Option String) (name : String) :
    StateM (List String) (Option String) := do
  modify (· ++ [name])
  return lookup name

/-- The names in parts, one for each slot whose name does not start with a dot. -/
def namesIn (ps : List Piece) : List String :=
  ps.filterMap fun
    | .literal _ => none
    | .slot body =>
      if (trimChars body).head? = some '.' then none else some (String.ofList (trimChars body))

/-- Without effects it is the same filling. -/
theorem run_fillNamesM_id (lookup : String → Option String) (text : String) :
    (fillNamesM (m := Id) (fun name ↦ pure (lookup name)) text).run = fillNames lookup text := by
  have hpiece (piece : Piece) :
      (Piece.fillNameM (m := Id) (fun name ↦ pure (lookup name)) piece).run =
        piece.expand fun body ↦ (name? body).bind lookup := by
    cases piece with
    | literal cs => rfl
    | slot body =>
      rw [Piece.fillNameM, Piece.expand]
      cases name? (String.ofList body) <;> rfl
  rw [fillNamesM, fillNames, expand, Id.run_bind, List.idRun_mapM, Id.run_pure,
    List.flatMap_def]
  exact congrArg (fun f ↦ String.ofList (List.flatten ((pieces text.toList).map f)))
    (funext hpiece)

theorem run_fillNameM (lookup : String → Option String) (piece : Piece) (log : List String) :
    ((piece.fillNameM (recording lookup)).run log).run =
      (piece.filled (named lookup), log ++ namesIn [piece]) := by
  cases piece with
  | literal cs => simp [Piece.fillNameM, Piece.filled, namesIn]
  | slot body =>
    rw [Piece.fillNameM, name?_ofList, Piece.filled, named, namesIn, List.filterMap_cons]
    by_cases hdot : (trimChars body).head? = some '.'
    · simp [hdot, Piece.source]
    · simp only [hdot, if_false]
      cases hfound : lookup (String.ofList (trimChars body)) <;>
        simp [recording, hfound, Piece.source]

/-- The parts are filled one after the other, and what is looked up is noted in this order. -/
theorem run_mapM_fillNameM (lookup : String → Option String) (ps : List Piece)
    (log : List String) :
    ((ps.mapM (Piece.fillNameM (recording lookup))).run log).run =
      (ps.map (Piece.filled (named lookup)), log ++ namesIn ps) := by
  induction ps generalizing log with
  | nil => simp [namesIn]
  | cons piece ps ih =>
    have hnames : namesIn (piece :: ps) = namesIn [piece] ++ namesIn ps :=
      List.filterMap_append (l := [piece])
    rw [List.mapM_cons, StateT.run_bind, Id.run_bind, run_fillNameM, hnames, List.map_cons]
    simp [ih]

theorem not_dot_of_mem_namesIn {name : String} (h : name ∈ namesIn ps) :
    name.toList.head? ≠ some '.' := by
  obtain ⟨piece, -, hname⟩ := List.mem_filterMap.1 h
  cases piece with
  | literal cs => cases hname
  | slot body =>
    simp only [Option.ite_none_left_eq_some, Option.some.injEq] at hname
    obtain ⟨hdot, rfl⟩ := hname
    rwa [String.toList_ofList]

theorem Parts.namesIn_eq (h : Parts cs ps) : namesIn (pieces cs) = namesIn ps := by
  induction h with
  | plain hnone => rw [pieces_of_cutPair_none (cutPair_eq_none_iff.2 hnone)]
  | unclosed hopen hnone =>
    rw [pieces_of_unclosed hopen.cutPair_eq (cutPair_eq_none_iff.2 hnone)]
    rfl
  | slot hopen hclose _ ih =>
    rw [pieces_of_closed hopen.cutPair_eq hclose.cutPair_eq]
    simp only [namesIn, List.filterMap_cons] at ih ⊢
    rw [ih]

theorem name?_bind (lookup : String → Option String) (body : List Char) :
    (name? (String.ofList body)).bind lookup = named lookup body := by
  rw [name?_ofList, named]
  split <;> rfl

theorem field?_bind (field : String → Option String) (body : List Char) :
    (field? (String.ofList body)).bind field = dotted field body := by
  rw [field?_ofList, dotted]
  split <;> rfl

/-- **Slots are looked up once each, in order**, and never under a name that starts with a dot. -/
theorem run_fillNamesM_recording (lookup : String → Option String) {text : String}
    (h : Parts text.toList ps) :
    ((fillNamesM (recording lookup) text).run []).run = (fillNames lookup text, namesIn ps) := by
  have hfilled : fillNames lookup text =
      String.ofList ((pieces text.toList).map (Piece.filled (named lookup))).flatten := by
    rw [fillNames, expand, List.flatMap_def]
    exact congrArg (fun f ↦ String.ofList ((pieces text.toList).map f).flatten)
      (funext (Piece.expand_eq_filled (name?_bind lookup)))
  rw [fillNamesM, StateT.run_bind, Id.run_bind, run_mapM_fillNameM, h.namesIn_eq, hfilled]
  rfl

end CallCheck.Text.Template

namespace CallCheck.Call.Data

/-- The names of the fields. -/
def fieldNames : List String :=
  ["WorkerID", "RequestNumber", "FullyQualifiedName", "MethodName", "ServiceName", "InputName",
    "OutputName", "IsClientStreaming", "IsServerStreaming", "Timestamp", "TimestampUnix",
    "TimestampUnixMilli", "TimestampUnixNano", "UUID"]

theorem isSome_field?_iff (d : Data) (key : String) : (d.field? key).isSome ↔ key ∈ fieldNames := by
  have hnames : fieldNames = d.members.map Prod.fst := rfl
  rw [field?, Option.isSome_map, List.lookup_isSome_iff, hnames, List.mem_map]
  exact exists_congr fun m ↦ and_congr_right fun _ ↦ beq_iff_eq.trans eq_comm

end CallCheck.Call.Data

namespace CallCheck.Text.Template

/-! ## Substitution -/

/-- **Texts are filled part by part.** Filling named values, and filling the fields of a call, keeps
what is not a known slot, part by part; no value is looked at again. A name is looked up once for
each slot that has it, in order, and never if it starts with a dot. -/
theorem substitution_of_parts :
    (∀ lookup, Substitutes (named lookup) (fillNames lookup) ∧
      ∀ text,
        (fillNamesM (m := Id) (fun name ↦ pure (lookup name)) text).run = fillNames lookup text ∧
        ∀ ps, Parts text.toList ps →
          ((fillNamesM (recording lookup) text).run []).run = (fillNames lookup text, namesIn ps) ∧
          ∀ name ∈ namesIn ps, name.toList.head? ≠ some '.') ∧
    ∀ d : Call.Data, Substitutes (dotted d.field?) d.render ∧
      ∀ key, (d.field? key).isSome ↔ key ∈ Call.Data.fieldNames := by
  refine ⟨fun lookup ↦ ⟨substitutes_expand (name?_bind lookup), fun text ↦
    ⟨run_fillNamesM_id lookup text, fun ps hps ↦
      ⟨run_fillNamesM_recording lookup hps, fun name ↦ not_dot_of_mem_namesIn⟩⟩⟩, fun d ↦
    ⟨substitutes_expand (field?_bind d.field?), d.isSome_field?_iff⟩⟩

/-- The value of a name that is an opening pair itself. -/
def opening (name : String) : Option String := if name = "a" then some "\x7b\x7b" else none

/-- A text with a slot and a brace behind it, and one that starts with the other brace of a pair and
ends in a slot that is not closed. The pair that is put in opens no slot. -/
theorem substitution_of_parts_opening :
    Closed "\x7b\x7b a \x7d\x7d\x7d".toList ∧
      fillNames opening ("\x7b\x7b a \x7d\x7d\x7d" ++ "\x7d\x7b\x7ba") =
        fillNames opening "\x7b\x7b a \x7d\x7d\x7d" ++ fillNames opening "\x7d\x7b\x7ba" ∧
      fillNames opening "\x7b\x7b a \x7d\x7d\x7d" = "\x7b\x7b\x7d" ∧
      fillNames opening "\x7d\x7b\x7ba" = "\x7d\x7b\x7ba" := by
  have hclosed : Closed "\x7b\x7b a \x7d\x7d\x7d".toList := by
    intro before inside heq
    have hbefore : before = [] := by
      rcases before with _ | ⟨b, _ | ⟨b', before⟩⟩
      · rfl
      · simp at heq
      · simp [List.cons_eq_append_iff] at heq
    subst hbefore
    obtain rfl : [' ', 'a', ' ', '}', '}', '}'] = inside := by simpa using heq
    exact ⟨[' ', 'a', ' '], ['}'], rfl⟩
  refine ⟨hclosed, ?_, by decide +kernel, by decide +kernel⟩
  exact (substitution_of_parts.1 opening).1.append _ _ hclosed (by decide)

end CallCheck.Text.Template

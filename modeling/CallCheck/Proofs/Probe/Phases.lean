import CallCheck.Proofs.Probe.Payload
import CallCheck.Proofs.Text.Slots

/-!
# The two phases of a template

A template is filled twice: with values of the environment before a call, and with the data of the
call before each of its messages. A slot belongs to one phase at most, as a dot stands before the
name of a field and before no other name.

## Seams

Where a slot is filled, its neighbours come to stand side by side. A literal in front of a slot does
not end in an opening brace, since the pair of the slot would have begun there, and neither does a
slot. So a new pair of opening braces needs one in a value. Closing braces may stand anywhere: each
pair that opens has been closed before, by the first pair behind it, or nothing closes it at all.

## Main statement

`phases_commute`: if no value has an opening brace, then the phases can be exchanged, and each of
them leaves the slots of the other where they are. Both rest on `pieces_fill`, which says what the
parts of a filled text are.
-/

namespace CallCheck

namespace Text.Template

variable {known known' : String → Option String} {c : Char} {cs : List Char}

/-! ## Parts put together -/

/-- Parts with characters in front of them. -/
def prepend (cs : List Char) : List Piece → List Piece
  | .literal ds :: ps => .literal (cs ++ ds) :: ps
  | ps => .literal cs :: ps

/-- Parts with literals that lie side by side put together. -/
def join : List Piece → List Piece
  | [] => []
  | .literal cs :: ps => prepend cs (join ps)
  | .slot body :: ps => .slot body :: join ps

/-- A part once its slot is filled, which makes it a literal. -/
def Piece.settle (known : String → Option String) : Piece → Piece
  | .literal cs => .literal cs
  | .slot body =>
    match known (String.ofList body) with
    | some value => .literal value.toList
    | none => .slot body

theorem prepend_prepend (cs ds : List Char) (ps : List Piece) :
    prepend cs (prepend ds ps) = prepend (cs ++ ds) ps := by
  rcases ps with _ | ⟨⟨es⟩ | ⟨body⟩, ps⟩
  · rfl
  · exact congrArg (.literal · :: ps) (List.append_assoc cs ds es).symm
  · rfl

theorem flatMap_expand_prepend (known : String → Option String) (cs : List Char)
    (ps : List Piece) :
    (prepend cs ps).flatMap (Piece.expand known) = cs ++ ps.flatMap (Piece.expand known) := by
  rcases ps with _ | ⟨⟨es⟩ | ⟨body⟩, ps⟩ <;> simp [prepend, Piece.expand]

theorem flatMap_expand_join (known : String → Option String) (ps : List Piece) :
    (join ps).flatMap (Piece.expand known) = ps.flatMap (Piece.expand known) := by
  induction ps with
  | nil => rfl
  | cons p ps ih =>
    rcases p with cs | body
    · rw [join, flatMap_expand_prepend, ih]
      rfl
    · rw [join, List.flatMap_cons, List.flatMap_cons, ih]

/-! ## Parts of a filled text -/

theorem pieces_cons_eq (h : ¬(c = '{' ∧ cs.head? = some '{')) :
    pieces (c :: cs) = prepend [c] (pieces cs) := by
  obtain ⟨l, ps, hcs, hccs⟩ := pieces_cons h
  rw [hcs, hccs]
  rfl

theorem prepend_nil_pieces (cs : List Char) : prepend [] (pieces cs) = pieces cs := by
  induction cs using scan_induction with
  | nil => rw [pieces_of_cutPair_none rfl, prepend, List.nil_append]
  | keep c rest hpair ih => rw [pieces_cons_eq hpair, prepend_prepend, List.nil_append]
  | slot inside body after hclose ih =>
    rw [pieces_of_closed (cutPair_pair '{' inside) hclose, prepend, List.nil_append]
  | unclosed inside hclose =>
    rw [pieces_of_unclosed (cutPair_pair '{' inside) hclose, prepend, List.nil_append]

theorem pieces_append {l : List Char} (hl : '{' ∉ l) (cs : List Char) :
    pieces (l ++ cs) = prepend l (pieces cs) := by
  induction l with
  | nil => rw [List.nil_append, prepend_nil_pieces]
  | cons a l ih =>
    obtain ⟨ha, hl⟩ := not_or.1 (mt List.mem_cons.2 hl)
    rw [List.cons_append, pieces_cons_eq fun h ↦ ha h.1.symm, ih hl, prepend_prepend]
    rfl

theorem pieces_slot_append {inside body after : List Char}
    (h : cutPair '}' inside = some (body, after)) (q : List Char) :
    pieces ('{' :: '{' :: (body ++ '}' :: '}' :: q)) = .literal [] :: .slot body :: pieces q := by
  have hfirst : FirstPair '}' (body ++ '}' :: '}' :: q) body q :=
    ⟨rfl, (firstPair_of_cutPair h).first⟩
  exact pieces_of_closed (cutPair_pair '{' _) hfirst.cutPair_eq

theorem head?_fill (h : cs.head? ≠ some '{') : (fill known cs).head? = cs.head? := by
  rcases cs with _ | ⟨a, cs⟩
  · rw [fill_nil]
  · have ha : a ≠ '{' := fun heq ↦ h (congrArg some heq)
    rw [fill_cons fun hpair ↦ ha hpair.1]
    rfl

/-- **The parts of a filled text** are those of the text, with what is filled in as literals. -/
theorem pieces_fill
    (hvalues : ∀ body value, known body = some value → '{' ∉ value.toList) (cs : List Char) :
    pieces (fill known cs) = join ((pieces cs).map (Piece.settle known)) := by
  induction cs using scan_induction with
  | nil =>
    rw [fill_nil, pieces_of_cutPair_none rfl]
    rfl
  | keep c rest hpair ih =>
    obtain ⟨l, ps, hrest, hcs⟩ := pieces_cons hpair
    have hseam : ¬(c = '{' ∧ (fill known rest).head? = some '{') := by
      rintro ⟨rfl, hhead⟩
      have hplain : rest.head? ≠ some '{' := fun h ↦ hpair ⟨rfl, h⟩
      rw [head?_fill hplain] at hhead
      exact hplain hhead
    rw [hrest, List.map_cons, Piece.settle, join] at ih
    rw [fill_cons hpair, pieces_cons_eq hseam, ih, prepend_prepend, hcs]
    rfl
  | slot inside body after hclose ih =>
    rw [fill_slot hclose, pieces_of_closed (cutPair_pair '{' inside) hclose, List.map_cons,
      List.map_cons, Piece.settle, Piece.settle, join, filler, Piece.expand]
    cases hknown : known (String.ofList body) with
    | none =>
      rw [join, ← ih]
      exact (congrArg pieces (by simp [Piece.source])).trans (pieces_slot_append hclose _)
    | some value =>
      rw [join, prepend_prepend, ← ih]
      exact pieces_append (hvalues _ _ hknown) _
  | unclosed inside hclose =>
    rw [fill_unclosed hclose, pieces_of_unclosed (cutPair_pair '{' inside) hclose]
    rfl

/-- **Filling twice is filling once**, with what is known in either phase. -/
theorem fill_fill
    (hvalues : ∀ body value, known body = some value → '{' ∉ value.toList)
    (known' : String → Option String) (cs : List Char) :
    fill known' (fill known cs) = fill (fun body ↦ (known body).or (known' body)) cs := by
  have hpiece (p : Piece) :
      (p.settle known).expand known' = p.expand fun body ↦ (known body).or (known' body) := by
    rcases p with cs | body
    · rfl
    · rw [Piece.settle, Piece.expand]
      cases known (String.ofList body) <;> rfl
  rw [fill, pieces_fill hvalues, flatMap_expand_join, List.flatMap_map, fill]
  exact congrArg (List.flatMap · (pieces cs)) (funext hpiece)

/-- The body of a slot. -/
def Piece.body? : Piece → Option (List Char)
  | .literal _ => none
  | .slot body => some body

theorem slots_eq (cs : List Char) : slots cs = (pieces cs).filterMap Piece.body? :=
  congrArg (List.filterMap · (pieces cs)) (funext fun p ↦ by cases p <;> rfl)

theorem filterMap_body?_join (ps : List Piece) :
    (join ps).filterMap Piece.body? = ps.filterMap Piece.body? := by
  have hprepend (cs : List Char) (ps : List Piece) :
      (prepend cs ps).filterMap Piece.body? = ps.filterMap Piece.body? := by
    rcases ps with _ | ⟨⟨es⟩ | ⟨body⟩, ps⟩ <;> rfl
  induction ps with
  | nil => rfl
  | cons p ps ih =>
    rcases p with cs | body
    · rw [join, hprepend, ih]
      rfl
    · rw [join, List.filterMap_cons, List.filterMap_cons, ih]

/-- The slots of a filled text are those of the text of which nothing is known. -/
theorem slots_fill (hvalues : ∀ body value, known body = some value → '{' ∉ value.toList)
    (cs : List Char) :
    slots (fill known cs) = (slots cs).filter fun body ↦ (known (String.ofList body)).isNone := by
  have hpiece (p : Piece) : (p.settle known).body? =
      p.body?.filter fun body ↦ (known (String.ofList body)).isNone := by
    rcases p with cs | body
    · rfl
    · rw [Piece.settle, Piece.body?, Option.filter_some]
      cases known (String.ofList body) <;> rfl
  rw [slots_eq, pieces_fill hvalues, filterMap_body?_join, List.filterMap_map, slots_eq,
    List.filter_filterMap]
  exact congrArg (List.filterMap · (pieces cs)) (funext hpiece)

/-- What is filled in one phase is no slot of the other. -/
theorem filter_slots_fill (hvalues : ∀ body value, known body = some value → '{' ∉ value.toList)
    {other : String → Bool} (hother : ∀ body, other body = true → known body = none)
    (cs : List Char) :
    (slots (fill known cs)).filter (fun body ↦ other (String.ofList body)) =
      (slots cs).filter fun body ↦ other (String.ofList body) := by
  rw [slots_fill hvalues, List.filter_filter]
  refine List.filter_congr fun body _ ↦ ?_
  cases hbody : other (String.ofList body) with
  | false => rfl
  | true => rw [hother _ hbody]; rfl

theorem isSome_field?_iff (body : String) :
    (Template.field? body).isSome ↔ name? body = none := by
  rw [Template.field?, name?]
  split
  · simp_all
  · simp_all

end Text.Template

namespace Probe

open Text.Template

variable {h : Harness} {d : Call.Data}

theorem not_mem_of_known
    (henv : ∀ name value, h.env.get? name = some value → '{' ∉ value.text.toList)
    (body value : String) (hknown : h.known body = some value) : '{' ∉ value.toList := by
  obtain ⟨name, -, hname⟩ := Option.bind_eq_some_iff.1 hknown
  obtain ⟨found, hfound, rfl⟩ := Option.map_eq_some_iff.1 hname
  exact henv name found hfound

theorem not_mem_of_field (hdata : ∀ key value, d.field? key = some value → '{' ∉ value.toList)
    (body value : String) (hknown : d.known body = some value) : '{' ∉ value.toList := by
  obtain ⟨key, -, hkey⟩ := Option.bind_eq_some_iff.1 hknown
  exact hdata key value hkey

theorem known_eq_none {body : String} (hfield : (Text.Template.field? body).isSome = true) :
    h.known body = none := by
  rw [Harness.known, (isSome_field?_iff body).1 hfield]
  rfl

theorem field_known_eq_none {body : String} (hname : (name? body).isSome = true) :
    d.known body = none := by
  have hfield : Text.Template.field? body = none := by
    by_contra hne
    rw [(isSome_field?_iff body).1 (Option.isSome_iff_ne_none.2 hne)] at hname
    cases hname
  rw [Call.Data.known, hfield]
  rfl

/-- **The phases of a template can be exchanged** if no value has an opening brace. Each of them
leaves the parts of the text as they are, but for the slots that it fills, which are then literal
text; so the slots of the other phase are the same before and after. -/
theorem phases_commute
    (henv : ∀ name value, h.env.get? name = some value → '{' ∉ value.text.toList)
    (hdata : ∀ key value, d.field? key = some value → '{' ∉ value.toList) (text : String) :
    let isName (body : List Char) : Bool := (name? (String.ofList body)).isSome
    let isField (body : List Char) : Bool := (Text.Template.field? (String.ofList body)).isSome
    d.render (h.substitute text) = h.substitute (d.render text) ∧
      pieces (h.substitute text).toList = join ((pieces text.toList).map (Piece.settle h.known)) ∧
      (slots (h.substitute text).toList).filter isField = (slots text.toList).filter isField ∧
      pieces (d.render text).toList = join ((pieces text.toList).map (Piece.settle d.known)) ∧
      (slots (d.render text).toList).filter isName = (slots text.toList).filter isName ∧
      ∀ body ∈ slots text.toList, isField body = !isName body := by
  intro isName isField
  have hnames := not_mem_of_known henv
  have hfields := not_mem_of_field hdata
  simp only [substitute_eq, render_eq, String.toList_ofList]
  refine ⟨?_, pieces_fill hnames _, filter_slots_fill hnames (fun _ ↦ known_eq_none) _,
    pieces_fill hfields _, filter_slots_fill hfields (fun _ ↦ field_known_eq_none) _, ?_⟩
  · rw [fill_fill hnames, fill_fill hfields]
    congr 2
    funext body
    by_cases hname : (name? body).isSome = true
    · rw [field_known_eq_none hname, Option.or_none, Option.none_or]
    · have hnone : name? body = none := Option.not_isSome_iff_eq_none.1 hname
      rw [known_eq_none ((isSome_field?_iff body).2 hnone), Option.or_none, Option.none_or]
  · intro body _
    rw [Bool.eq_iff_iff, isSome_field?_iff]
    simp [isName]

/-- The data of a call by a worker whose name ends in a closing brace. -/
def bracedCall : Call.Data := { firstCall with workerId := "w\x7d" }

/-- A text in which braces stand on both sides of slots, and the last slot is not closed. -/
def seams : String :=
  "\x7b\x7b\x7bx\x7d\x7d\x7b\x7bx\x7d\x7d\x7b\x7b\x7b.WorkerID\x7d\x7d" ++
    "\x7d\x7b\x7b.WorkerID\x7d\x7d\x7b\x7bx"

/-- One slot of each phase is filled, the name with nothing. Two slots with a brace too many come to
stand side by side, and are no slots of either phase. -/
theorem phases_commute_seams :
    (∀ name value, (named "").env.get? name = some value → '{' ∉ value.text.toList) ∧
      (∀ key value, bracedCall.field? key = some value → '{' ∉ value.toList) ∧
      bracedCall.render ((named "").substitute seams) =
        "\x7b\x7b\x7bx\x7d\x7d\x7b\x7b\x7b.WorkerID\x7d\x7d\x7dw\x7d\x7b\x7bx" ∧
      (named "").substitute (bracedCall.render seams) =
        "\x7b\x7b\x7bx\x7d\x7d\x7b\x7b\x7b.WorkerID\x7d\x7d\x7dw\x7d\x7b\x7bx" := by
  have henv : ∀ name value, (named "").env.get? name = some value → '{' ∉ value.text.toList := by
    intro name value hvalue
    obtain ⟨before, after, hbindings, -⟩ := List.lookup_eq_some_iff.1 hvalue
    have hall : ∀ b ∈ (named "").env.bindings, '{' ∉ b.2.text.toList := by decide +kernel
    exact hall (name, value) (hbindings ▸ List.mem_append_right _ List.mem_cons_self)
  have hdata : ∀ key value, bracedCall.field? key = some value → '{' ∉ value.toList := by
    intro key value hvalue
    obtain ⟨j, hj, rfl⟩ := Option.map_eq_some_iff.1 hvalue
    obtain ⟨before, after, hmembers, -⟩ := List.lookup_eq_some_iff.1 hj
    have hall : ∀ m ∈ bracedCall.members, '{' ∉ (Call.Data.plain m.2).toList := by decide +kernel
    exact hall (key, j) (hmembers ▸ List.mem_append_right _ List.mem_cons_self)
  obtain ⟨hcommute, -⟩ := phases_commute henv hdata seams
  have hfilled : bracedCall.render ((named "").substitute seams) =
      "\x7b\x7b\x7bx\x7d\x7d\x7b\x7b\x7b.WorkerID\x7d\x7d\x7dw\x7d\x7b\x7bx" := by
    decide +kernel
  exact ⟨henv, hdata, hfilled, hcommute ▸ hfilled⟩

end Probe

end CallCheck

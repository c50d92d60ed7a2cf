import CallCheck.Text.Template

/-!
# Filling templates

What comes of a template when its slots are filled, read off from the left: a character that starts
no doubled brace stands for itself, a slot is filled or stands for itself, and after a doubled brace
that is never closed everything stands for itself.

## Main statement

`Template.filled_fill`: the text changes only where a known slot is filled. `Template.Filled` keeps
of a slot nothing but what is asked of the slots that are known; the others are kept character by
character, wherever they reach.
-/

namespace CallCheck.Text.Template

variable {known : String → Option String} {c a : Char} {cs before inside body after : List Char}

/-! ## Cutting at a pair -/

theorem cutPair_cons (h : ¬(a = c ∧ cs.head? = some c)) :
    cutPair c (a :: cs) = (cutPair c cs).map fun (before, after) ↦ (a :: before, after) := by
  cases cs with
  | nil => rfl
  | cons b cs =>
    rw [cutPair, if_neg]
    rintro ⟨ha, rfl⟩
    exact h ⟨ha, rfl⟩

theorem cutPair_pair (c : Char) (cs : List Char) : cutPair c (c :: c :: cs) = some ([], cs) := by
  rw [cutPair, if_pos ⟨rfl, rfl⟩]

theorem cutPair_append {l : List Char} (hl : c ∉ l) (cs : List Char) :
    cutPair c (l ++ cs) = (cutPair c cs).map fun (before, after) ↦ (l ++ before, after) := by
  induction l with
  | nil =>
    rw [List.nil_append]
    cases cutPair c cs <;> rfl
  | cons a l ih =>
    obtain ⟨ha, hl⟩ := not_or.1 (mt List.mem_cons.2 hl)
    rw [List.cons_append, cutPair_cons fun h ↦ ha h.1.symm, ih hl, Option.map_map]
    rfl

theorem cutPair_of_cons (h : cutPair c (a :: cs) = none) : cutPair c cs = none := by
  by_cases hpair : a = c ∧ cs.head? = some c
  · obtain ⟨rfl, hhead⟩ := hpair
    obtain ⟨rest, rfl⟩ := List.head?_eq_some_iff.1 hhead
    rw [cutPair_pair] at h
    cases h
  · rwa [cutPair_cons hpair, Option.map_eq_none_iff] at h

/-! ## Slots -/

/-- The bodies of the slots of a text. -/
def slots (cs : List Char) : List (List Char) :=
  (pieces cs).filterMap fun
    | .literal _ => none
    | .slot body => some body

/-- The text with every known slot filled, as characters. -/
def fill (known : String → Option String) (cs : List Char) : List Char :=
  (pieces cs).flatMap (Piece.expand known)

theorem expand_eq (known : String → Option String) (s : String) :
    expand known s = String.ofList (fill known s.toList) := rfl

theorem pieces_of_cutPair_none (h : cutPair '{' cs = none) : pieces cs = [.literal cs] := by
  rw [pieces]
  split
  · rfl
  · rename_i h'
    rw [h] at h'
    cases h'

theorem pieces_of_unclosed (h : cutPair '{' cs = some (before, inside))
    (h' : cutPair '}' inside = none) : pieces cs = [.literal cs] := by
  rw [pieces]
  split
  · rfl
  · rename_i hopen
    rw [h] at hopen
    cases hopen
    split
    · rfl
    · rename_i hclose
      rw [h'] at hclose
      cases hclose

theorem pieces_of_closed (h : cutPair '{' cs = some (before, inside))
    (h' : cutPair '}' inside = some (body, after)) :
    pieces cs = .literal before :: .slot body :: pieces after := by
  rw [pieces]
  split
  · rename_i hopen
    rw [h] at hopen
    cases hopen
  · rename_i hopen
    rw [h] at hopen
    cases hopen
    split
    · rename_i hclose
      rw [h'] at hclose
      cases hclose
    · rename_i hclose
      rw [h'] at hclose
      cases hclose
      rfl

theorem pieces_cons (h : ¬(c = '{' ∧ cs.head? = some '{')) :
    ∃ l ps, pieces cs = .literal l :: ps ∧ pieces (c :: cs) = .literal (c :: l) :: ps := by
  have hcut := cutPair_cons h
  cases hopen : cutPair '{' cs with
  | none =>
    rw [hopen] at hcut
    exact ⟨cs, [], pieces_of_cutPair_none hopen, pieces_of_cutPair_none hcut⟩
  | some cut =>
    obtain ⟨before, inside⟩ := cut
    rw [hopen] at hcut
    cases hclose : cutPair '}' inside with
    | none => exact ⟨cs, [], pieces_of_unclosed hopen hclose, pieces_of_unclosed hcut hclose⟩
    | some cut' =>
      obtain ⟨body, after⟩ := cut'
      exact ⟨before, _, pieces_of_closed hopen hclose, pieces_of_closed hcut hclose⟩

theorem fill_nil : fill known [] = [] := by
  rw [fill, pieces_of_cutPair_none rfl]
  rfl

theorem slots_nil : slots [] = [] := by
  rw [slots, pieces_of_cutPair_none rfl]
  rfl

theorem fill_cons (h : ¬(c = '{' ∧ cs.head? = some '{')) :
    fill known (c :: cs) = c :: fill known cs := by
  obtain ⟨l, ps, hcs, hccs⟩ := pieces_cons h
  rw [fill, fill, hcs, hccs]
  rfl

theorem slots_cons (h : ¬(c = '{' ∧ cs.head? = some '{')) : slots (c :: cs) = slots cs := by
  obtain ⟨l, ps, hcs, hccs⟩ := pieces_cons h
  rw [slots, slots, hcs, hccs]
  rfl

theorem fill_append {l : List Char} (hl : '{' ∉ l) (cs : List Char) :
    fill known (l ++ cs) = l ++ fill known cs := by
  induction l with
  | nil => rfl
  | cons a l ih =>
    obtain ⟨ha, hl⟩ := not_or.1 (mt List.mem_cons.2 hl)
    rw [List.cons_append, fill_cons fun h ↦ ha h.1.symm, ih hl, List.cons_append]

theorem slots_append {l : List Char} (hl : '{' ∉ l) (cs : List Char) :
    slots (l ++ cs) = slots cs := by
  induction l with
  | nil => rfl
  | cons a l ih =>
    obtain ⟨ha, hl⟩ := not_or.1 (mt List.mem_cons.2 hl)
    rw [List.cons_append, slots_cons fun h ↦ ha h.1.symm, ih hl]

/-- What a slot is replaced by. -/
def filler (known : String → Option String) (body : List Char) : List Char :=
  Piece.expand known (.slot body)

theorem fill_slot (h : cutPair '}' inside = some (body, after)) :
    fill known ('{' :: '{' :: inside) = filler known body ++ fill known after := by
  rw [fill, pieces_of_closed (cutPair_pair '{' inside) h]
  rfl

theorem slots_slot (h : cutPair '}' inside = some (body, after)) :
    slots ('{' :: '{' :: inside) = body :: slots after := by
  rw [slots, pieces_of_closed (cutPair_pair '{' inside) h]
  rfl

theorem fill_unclosed (h : cutPair '}' inside = none) :
    fill known ('{' :: '{' :: inside) = '{' :: '{' :: inside := by
  rw [fill, pieces_of_unclosed (cutPair_pair '{' inside) h]
  exact List.append_nil _

theorem slots_unclosed (h : cutPair '}' inside = none) : slots ('{' :: '{' :: inside) = [] := by
  rw [slots, pieces_of_unclosed (cutPair_pair '{' inside) h]
  rfl

/-- Reading a text from the left: it is empty, or it starts with a character that starts no pair of
braces, or with a slot, or with a pair that is never closed. -/
@[elab_as_elim]
theorem scan_induction {motive : List Char → Prop} (nil : motive [])
    (keep : ∀ c rest, ¬(c = '{' ∧ rest.head? = some '{') → motive rest → motive (c :: rest))
    (slot : ∀ inside body after, cutPair '}' inside = some (body, after) → motive after →
      motive ('{' :: '{' :: inside))
    (unclosed : ∀ inside, cutPair '}' inside = none → motive ('{' :: '{' :: inside))
    (cs : List Char) : motive cs := by
  have hall : ∀ n, ∀ cs : List Char, cs.length ≤ n → motive cs := by
    intro n
    induction n with
    | zero =>
      intro cs hlength
      obtain rfl := List.length_eq_zero_iff.1 (Nat.le_zero.1 hlength)
      exact nil
    | succ n ih =>
      intro cs hlength
      cases cs with
      | nil => exact nil
      | cons c rest =>
        rw [List.length_cons] at hlength
        by_cases hpair : c = '{' ∧ rest.head? = some '{'
        · obtain ⟨rfl, hhead⟩ := hpair
          obtain ⟨inside, rfl⟩ := List.head?_eq_some_iff.1 hhead
          cases hclose : cutPair '}' inside with
          | none => exact unclosed inside hclose
          | some cut =>
            obtain ⟨body, after⟩ := cut
            refine slot inside body after hclose (ih after ?_)
            rw [List.length_cons, eq_of_cutPair hclose, List.length_append, List.length_cons,
              List.length_cons] at hlength
            omega
        · exact keep c rest hpair (ih rest (Nat.le_of_succ_le_succ hlength))
  exact hall cs.length cs (Nat.le_refl _)

/-- Where no pair closes there are no slots, and nothing is filled. -/
theorem fill_of_cutPair_none (known : String → Option String) (h : cutPair '}' cs = none) :
    fill known cs = cs ∧ slots cs = [] := by
  induction cs using scan_induction with
  | nil => exact ⟨fill_nil, slots_nil⟩
  | keep c rest hpair ih =>
    obtain ⟨hfill, hslots⟩ := ih (cutPair_of_cons h)
    rw [fill_cons hpair, slots_cons hpair, hfill]
    exact ⟨rfl, hslots⟩
  | slot inside body after hclose ih =>
    rw [cutPair_of_cons (cutPair_of_cons h)] at hclose
    cases hclose
  | unclosed inside hclose => exact ⟨fill_unclosed hclose, slots_unclosed hclose⟩

/-! ## Where a text changes -/

/-- A text and what comes of it when some slots are filled. A slot of a given body may be filled
with a given value only where that is allowed; all else is kept. -/
inductive Filled (allowed : List Char → List Char → Prop) : List Char → List Char → Prop
  | nil : Filled allowed [] []
  | keep (c : Char) {cs ds : List Char} : Filled allowed cs ds → Filled allowed (c :: cs) (c :: ds)
  | slot {body value cs ds : List Char} : allowed body value → Filled allowed cs ds →
      Filled allowed ('{' :: '{' :: (body ++ '}' :: '}' :: cs)) (value ++ ds)

variable {allowed : List Char → List Char → Prop}

theorem Filled.append (l : List Char) {ds : List Char} (h : Filled allowed cs ds) :
    Filled allowed (l ++ cs) (l ++ ds) := by
  induction l with
  | nil => exact h
  | cons c l ih => exact .keep c ih

theorem Filled.refl (cs : List Char) : Filled allowed cs cs := by
  have h : Filled allowed (cs ++ []) (cs ++ []) := Filled.append cs .nil
  rwa [List.append_nil] at h

/-- **A text changes only where a known slot is filled.** -/
theorem filled_fill (h : ∀ body ∈ slots cs, ∀ value, known (String.ofList body) = some value →
    allowed body value.toList) : Filled allowed cs (fill known cs) := by
  induction cs using scan_induction with
  | nil =>
    rw [fill_nil]
    exact .nil
  | keep c rest hpair ih =>
    rw [slots_cons hpair] at h
    rw [fill_cons hpair]
    exact .keep c (ih h)
  | slot inside body after hclose ih =>
    rw [slots_slot hclose] at h
    obtain ⟨hbody, hafter⟩ := List.forall_mem_cons.1 h
    rw [fill_slot hclose, filler, Piece.expand, eq_of_cutPair hclose]
    cases hknown : known (String.ofList body) with
    | none =>
      have hkept := (ih hafter).append ('{' :: '{' :: (body ++ ['}', '}']))
      rwa [List.cons_append, List.cons_append, List.append_assoc] at hkept
    | some value => exact .slot (hbody value hknown) (ih hafter)
  | unclosed inside hclose =>
    rw [fill_unclosed hclose]
    exact .refl _

end CallCheck.Text.Template

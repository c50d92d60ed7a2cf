import CallCheck.Text.Basic

/-!
# Templates

Text with slots. A slot is a body between the nearest doubled braces, `{{` body `}}`; an opening
pair that is never closed is literal text. `pieces` cuts a text into literals and slots, and
`expand` puts it together again with each slot that is known replaced. What is put in is never
looked at again.
-/

namespace CallCheck.Text.Template

/-- A part of a template. -/
inductive Piece
  /-- Text that stands for itself. -/
  | literal (cs : List Char)
  /-- The text between doubled braces. -/
  | slot (body : List Char)
  deriving DecidableEq, Repr

/-- What stands before the first doubled `c`, and what after it. -/
def cutPair (c : Char) : List Char → Option (List Char × List Char)
  | a :: b :: rest =>
    if a = c ∧ b = c then some ([], rest)
    else (cutPair c (b :: rest)).map fun (before, after) ↦ (a :: before, after)
  | _ => none

/-- A cut loses the pair and nothing else. -/
theorem eq_of_cutPair {c : Char} {cs before after : List Char}
    (h : cutPair c cs = some (before, after)) : cs = before ++ c :: c :: after := by
  fun_induction cutPair c cs generalizing before after with
  | case1 a b rest hab =>
    obtain ⟨rfl, rfl⟩ := hab
    simp_all
  | case2 a b rest _ ih =>
    obtain ⟨⟨l, r⟩, hcut, heq⟩ := Option.map_eq_some_iff.1 h
    obtain ⟨rfl, rfl⟩ := Prod.mk.inj heq
    simp [ih hcut]
  | case3 => simp at h

/-- The literals and slots of a text, from left to right. -/
def pieces (cs : List Char) : List Piece :=
  match _ : cutPair '{' cs with
  | none => [.literal cs]
  | some (before, inside) =>
    match _ : cutPair '}' inside with
    | none => [.literal cs]
    | some (body, after) => .literal before :: .slot body :: pieces after
termination_by cs.length
decreasing_by
  rename_i h h'
  rw [eq_of_cutPair h, eq_of_cutPair h']
  simp only [List.length_append, List.length_cons]
  omega

/-- A piece as it is written. -/
def Piece.source : Piece → List Char
  | .literal cs => cs
  | .slot body => '{' :: '{' :: (body ++ ['}', '}'])

/-- A piece with a slot replaced by what it stands for, if that is known. -/
def Piece.expand (known : String → Option String) : Piece → List Char
  | .literal cs => cs
  | .slot body => ((known (String.ofList body)).map String.toList).getD (Piece.slot body).source

/-- The text with every known slot replaced. -/
def expand (known : String → Option String) (s : String) : String :=
  String.ofList ((pieces s.toList).flatMap (Piece.expand known))

/-- The name in a slot for named values. A body that starts with a dot names none. -/
def name? (body : String) : Option String :=
  match trimChars body.toList with
  | '.' :: _ => none
  | cs => some (String.ofList cs)

/-- The field in a slot for the data of a call, whose name follows a dot. -/
def field? (body : String) : Option String :=
  match trimChars body.toList with
  | '.' :: cs => some (String.ofList (trimChars cs))
  | _ => none

/-- The text with the slots of named values replaced. -/
def fillNames (lookup : String → Option String) : String → String :=
  expand fun body ↦ (name? body).bind lookup

/-- The text with the slots of fields replaced. -/
def fillFields (lookup : String → Option String) : String → String :=
  expand fun body ↦ (field? body).bind lookup

end CallCheck.Text.Template

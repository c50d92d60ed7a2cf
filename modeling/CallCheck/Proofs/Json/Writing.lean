import CallCheck.Proofs.Json.Strings
import CallCheck.Proofs.Text.Utf8
import Mathlib.Data.Bool.AllAny
import Mathlib.Data.Option.Basic

/-!
# Reading what was written

The compact text of a document is made of parts that can be told apart: its quotes stand around
strings, and its braces never stand next to each other unless they are in a string (`Json.parts`,
`Json.Sound`).

## Main statement

`Json.read?_text`: a document is read back from its compact text if its numbers are, one by one, and
if it does not nest too deep. Integers of 64 bits are read back (`Json.Number.readable_int`); a
number with a fraction need not be, since it is not always read as the number that is nearest to it.
-/

namespace CallCheck.Json

open Numeric

/-! ## The characters of numbers -/

/-- All characters are such that numbers are made of. -/
abbrev OfNumberChars (cs : List Char) : Prop := ∀ c ∈ cs, isNumberChar c = true

theorem ofNumberChars_decimalDigits (n : Nat) : OfNumberChars (decimalDigits n) := by
  intro c hc
  have hdigit : isDigit c = true := Nat.isDigit_of_mem_toDigits (by decide) (by decide) hc
  rw [isNumberChar, hdigit]
  rfl

theorem ofNumberChars_replicate (n : Nat) : OfNumberChars (List.replicate n '0') := by
  intro c hc
  obtain rfl := List.eq_of_mem_replicate hc
  rfl

theorem OfNumberChars.append {cs ds : List Char} (hcs : OfNumberChars cs) (hds : OfNumberChars ds) :
    OfNumberChars (cs ++ ds) :=
  List.forall_mem_append.2 ⟨hcs, hds⟩

theorem OfNumberChars.cons {c : Char} {cs : List Char} (hc : isNumberChar c = true)
    (hcs : OfNumberChars cs) : OfNumberChars (c :: cs) :=
  List.forall_mem_cons.2 ⟨hc, hcs⟩

theorem OfNumberChars.setPoint {ds : List Char} (hds : OfNumberChars ds) (l : Layout) (e : Int) :
    OfNumberChars (l.setPoint ds e) := by
  cases e with
  | ofNat e =>
    refine (hds.append (ofNumberChars_replicate e)).append ?_
    split
    · exact List.all_eq_true.1 rfl
    · exact List.forall_mem_nil _
  | negSucc e =>
    rw [Layout.setPoint]
    split
    · exact OfNumberChars.append (fun c hc ↦ hds c (List.mem_of_mem_take hc))
        (.cons rfl fun c hc ↦ hds c (List.mem_of_mem_drop hc))
    · exact .cons rfl (.cons rfl ((ofNumberChars_replicate _).append hds))

theorem OfNumberChars.setExponent {ds : List Char} (hds : OfNumberChars ds) (e : Int) :
    OfNumberChars (Layout.setExponent ds e) := by
  unfold Layout.setExponent
  refine OfNumberChars.append ?_ (.cons rfl (.cons ?_ (ofNumberChars_decimalDigits _)))
  · split
    · exact List.forall_mem_nil _
    · exact hds
    · obtain ⟨hd, hrest⟩ := List.forall_mem_cons.1 hds
      exact .cons hd (.cons rfl hrest)
  · split <;> rfl

theorem ofNumberChars_finite (l : Layout) (negative : Bool) (m : Nat) (q : Int) :
    OfNumberChars (l.finite negative m q) := by
  rw [Layout.finite]
  generalize (if m = 0 then Decimal.mk 0 0 else binary64.shortest m q) = d
  refine OfNumberChars.append ?_ ?_
  · cases negative with
    | false => exact List.forall_mem_nil _
    | true => exact List.all_eq_true.1 rfl
  · rw [Layout.decimal]
    split
    · exact (ofNumberChars_decimalDigits _).setPoint l _
    · exact (ofNumberChars_decimalDigits _).setExponent _

theorem writeNumber_ofNat (n : Nat) : writeNumber (.int (.ofNat n)) = decimalDigits n :=
  String.toList_ofList

theorem writeNumber_negSucc (n : Nat) :
    writeNumber (.int (.negSucc n)) = '-' :: decimalDigits (n + 1) := by
  change ("-" ++ String.ofList (decimalDigits (n + 1))).toList = _
  rw [String.toList_append, String.toList_ofList, String.toList_ofList]
  rfl

theorem ofNumberChars_writeNumber (n : Number) :
    OfNumberChars (writeNumber n) ∨ writeNumber n = ['n', 'u', 'l', 'l'] := by
  cases n with
  | int i =>
    left
    cases i with
    | ofNat n =>
      rw [writeNumber_ofNat]
      exact ofNumberChars_decimalDigits n
    | negSucc n =>
      rw [writeNumber_negSucc]
      exact .cons rfl (ofNumberChars_decimalDigits _)
  | real x =>
    rw [writeNumber, Binary64.jsonText]
    split
    · rw [String.toList_ofList]
      exact .inl (ofNumberChars_finite _ _ _ _)
    · exact .inr rfl

theorem ne_of_mem_writeNumber {n : Number} {c : Char} (hc : c ∈ writeNumber n) :
    c ≠ '"' ∧ c ≠ '\x7b' := by
  rcases ofNumberChars_writeNumber n with hnumber | hnull
  · have hc' := hnumber c hc
    constructor
    · rintro rfl
      cases hc'
    · rintro rfl
      cases hc'
  · rw [hnull] at hc
    have hword : ∀ c ∈ ['n', 'u', 'l', 'l'], c ≠ '"' ∧ c ≠ '\x7b' :=
      List.all_iff_forall_prop.1 (by decide)
    exact hword c hc

/-! ## The parts of a document -/

mutual

/-- The parts of the compact text of a document. -/
def parts : Json → List Part
  | .null => [.char 'n', .char 'u', .char 'l', .char 'l']
  | .bool true => [.char 't', .char 'r', .char 'u', .char 'e']
  | .bool false => [.char 'f', .char 'a', .char 'l', .char 's', .char 'e']
  | .number n => (writeNumber n).map .char
  | .string s => [.quoted s]
  | .array items => .char '[' :: (itemParts items ++ [.char ']'])
  | .object members => .char '\x7b' :: (memberParts members ++ [.char '\x7d'])

/-- The parts of items with commas between them. -/
def itemParts : List Json → List Part
  | [] => []
  | [j] => j.parts
  | j :: rest => j.parts ++ .char ',' :: itemParts rest

/-- The parts of members with commas between them. -/
def memberParts : List (String × Json) → List Part
  | [] => []
  | [(k, v)] => .quoted k :: .char ':' :: v.parts
  | (k, v) :: rest => .quoted k :: .char ':' :: (v.parts ++ .char ',' :: memberParts rest)

end

theorem writeItems_cons_cons (j j' : Json) (rest : List Json) :
    writeItems (j :: j' :: rest) = j.write ++ ',' :: writeItems (j' :: rest) := rfl

theorem itemParts_cons_cons (j j' : Json) (rest : List Json) :
    itemParts (j :: j' :: rest) = j.parts ++ .char ',' :: itemParts (j' :: rest) := rfl

theorem writeMembers_cons_cons (k : String) (v : Json) (m : String × Json)
    (rest : List (String × Json)) : writeMembers ((k, v) :: m :: rest) =
      writeString k ++ ':' :: (v.write ++ ',' :: writeMembers (m :: rest)) := rfl

theorem memberParts_cons_cons (k : String) (v : Json) (m : String × Json)
    (rest : List (String × Json)) : memberParts ((k, v) :: m :: rest) =
      .quoted k :: .char ':' :: (v.parts ++ .char ',' :: memberParts (m :: rest)) := rfl

theorem written_map_char (cs : List Char) : written (cs.map .char) = cs := by
  induction cs with
  | nil => rfl
  | cons c cs ih => rw [List.map_cons, written_cons, ih, Part.write, List.singleton_append]

mutual

theorem written_parts : (j : Json) → written j.parts = j.write
  | .null => rfl
  | .bool true => rfl
  | .bool false => rfl
  | .number n => by rw [parts, written_map_char, write]
  | .string s => by rw [parts, written_cons, Part.write, write]; exact List.append_nil _
  | .array items => by
    rw [parts, written_cons, written_append, written_itemParts, write]
    rfl
  | .object members => by
    rw [parts, written_cons, written_append, written_memberParts, write]
    rfl

theorem written_itemParts : (items : List Json) → written (itemParts items) = writeItems items
  | [] => rfl
  | [j] => by rw [itemParts, written_parts j, writeItems]
  | j :: j' :: rest => by
    rw [itemParts_cons_cons, written_append, written_cons, written_parts j,
      written_itemParts (j' :: rest), writeItems_cons_cons]
    rfl

theorem written_memberParts :
    (members : List (String × Json)) → written (memberParts members) = writeMembers members
  | [] => rfl
  | [(k, v)] => by
    rw [memberParts, written_cons, written_cons, written_parts v, writeMembers]
    rfl
  | (k, v) :: m :: rest => by
    rw [memberParts_cons_cons, written_cons, written_cons, written_append, written_cons,
      written_parts v, written_memberParts (m :: rest), writeMembers_cons_cons]
    rfl

end

/-- Parts whose text can be taken apart again: no quote stands for itself, and no two braces open
next to each other. -/
inductive Sound : List Part → Prop
  | nil : Sound []
  | quoted (s : String) {ps : List Part} : Sound ps → Sound (.quoted s :: ps)
  | char {c : Char} {ps : List Part} : c ≠ '"' → c ≠ '\x7b' → Sound ps → Sound (.char c :: ps)
  | brace {ps : List Part} : ps.head? ≠ some (.char '\x7b') → Sound ps →
      Sound (.char '\x7b' :: ps)

theorem Sound.not_mem {ps : List Part} (h : Sound ps) : .char '"' ∉ ps := by
  intro hmem
  induction h with
  | nil => cases hmem
  | quoted s h ih =>
    rcases List.mem_cons.1 hmem with heq | hmem
    · cases heq
    · exact ih hmem
  | char hquote hbrace h ih =>
    rcases List.mem_cons.1 hmem with heq | hmem
    · exact hquote (Part.char.inj heq).symm
    · exact ih hmem
  | brace hhead h ih =>
    rcases List.mem_cons.1 hmem with heq | hmem
    · cases heq
    · exact ih hmem

theorem Sound.map_char (cs : List Char) (hcs : ∀ c ∈ cs, c ≠ '"' ∧ c ≠ '\x7b') {ps : List Part}
    (h : Sound ps) : Sound (cs.map .char ++ ps) := by
  induction cs with
  | nil => exact h
  | cons c cs ih =>
    obtain ⟨⟨hquote, hbrace⟩, hcs⟩ := List.forall_mem_cons.1 hcs
    exact .char hquote hbrace (ih hcs)

mutual

theorem sound_parts_append {ps : List Part} (h : Sound ps) : (j : Json) → Sound (j.parts ++ ps)
  | .null => .map_char ['n', 'u', 'l', 'l'] (List.all_iff_forall_prop.1 (by decide)) h
  | .bool true => .map_char ['t', 'r', 'u', 'e'] (List.all_iff_forall_prop.1 (by decide)) h
  | .bool false => .map_char ['f', 'a', 'l', 's', 'e'] (List.all_iff_forall_prop.1 (by decide)) h
  | .number n => .map_char _ (fun _ hc ↦ ne_of_mem_writeNumber hc) h
  | .string s => .quoted s h
  | .array items => by
    rw [parts, List.cons_append, List.append_assoc]
    exact .char (by decide) (by decide)
      (sound_itemParts_append (.char (by decide) (by decide) h) items)
  | .object members => by
    rw [parts, List.cons_append, List.append_assoc]
    refine .brace ?_ (sound_memberParts_append (.char (by decide) (by decide) h) members)
    cases members with
    | nil => nofun
    | cons m rest =>
      obtain ⟨k, v⟩ := m
      cases rest <;> nofun

theorem sound_itemParts_append {ps : List Part} (h : Sound ps) :
    (items : List Json) → Sound (itemParts items ++ ps)
  | [] => h
  | [j] => sound_parts_append h j
  | j :: j' :: rest => by
    rw [itemParts_cons_cons, List.append_assoc]
    exact sound_parts_append
      (.char (by decide) (by decide) (sound_itemParts_append h (j' :: rest))) j

theorem sound_memberParts_append {ps : List Part} (h : Sound ps) :
    (members : List (String × Json)) → Sound (memberParts members ++ ps)
  | [] => h
  | [(k, v)] => .quoted k (.char (by decide) (by decide) (sound_parts_append h v))
  | (k, v) :: m :: rest => by
    rw [memberParts_cons_cons, List.cons_append, List.cons_append, List.append_assoc]
    exact .quoted k (.char (by decide) (by decide)
      (sound_parts_append
        (.char (by decide) (by decide) (sound_memberParts_append h (m :: rest))) v))

end

theorem sound_parts (j : Json) : Sound j.parts :=
  List.append_nil j.parts ▸ sound_parts_append .nil j

/-! ## Documents that are read back -/

/-- A number that is read back from its text. -/
def Number.Readable (n : Number) : Prop :=
  (Literal.ofChars? (writeNumber n)).bind Literal.number? = some n

/-- The number that the text of a number is read as. -/
def Number.reread? (n : Number) : Option Number :=
  (Literal.ofChars? (writeNumber n)).bind Literal.number?

theorem isDigit_of_mem_decimalDigits {n : Nat} {c : Char} (hc : c ∈ decimalDigits n) :
    isDigit c = true :=
  Nat.isDigit_of_mem_toDigits (by decide) (by decide) hc

theorem natOfDigits_decimalDigits (n : Nat) : natOfDigits 0 (decimalDigits n) = n := by
  have hdigits : Nat.ofDigitChars 10 (decimalDigits n) 0 = n := Nat.ofDigitChars_ten_toDigits
  rw [Nat.ofDigitChars_eq_foldl] at hdigits
  rw [natOfDigits]
  refine Eq.trans ?_ hdigits
  refine congrArg (fun f ↦ List.foldl f 0 (decimalDigits n)) ?_
  funext m c
  rw [Nat.mul_comm]

theorem head?_decimalDigits {n : Nat} (hn : 0 < n) : (decimalDigits n).head? ≠ some '0' := by
  induction n using Nat.strongRecOn with
  | ind n ih =>
    by_cases hlt : n < 10
    · have hdigit : ∀ m < 10, 0 < m → Nat.digitChar m ≠ '0' := by decide
      rw [decimalDigits, Nat.toDigits_of_lt_base hlt]
      exact fun h ↦ hdigit n hlt hn (Option.some.inj h)
    · have hten : 0 < n / 10 := Nat.div_pos (Nat.not_lt.1 hlt) (by decide)
      have hhead := ih (n / 10) (Nat.div_lt_self hn (by decide)) hten
      rw [decimalDigits, Nat.toDigits_of_base_le (by decide) (Nat.not_lt.1 hlt), List.head?_append]
      cases hdigits : (Nat.toDigits 10 (n / 10)).head? with
      | none => exact absurd (List.head?_eq_none_iff.1 hdigits) Nat.toDigits_ne_nil
      | some c => exact fun h ↦ hhead (hdigits.trans h)

theorem ofChars?_decimalDigits (n : Nat) :
    Literal.ofChars? (decimalDigits n) = some ⟨false, decimalDigits n, none, none⟩ ∧
    Literal.ofChars? ('-' :: decimalDigits n) = some ⟨true, decimalDigits n, none, none⟩ := by
  have hall : ∀ c ∈ decimalDigits n, isDigit c = true := fun c ↦ isDigit_of_mem_decimalDigits
  have htake : (decimalDigits n).takeWhile isDigit = decimalDigits n := by
    have happend : (decimalDigits n ++ []).takeWhile isDigit =
        decimalDigits n ++ [].takeWhile isDigit := List.takeWhile_append_of_pos hall
    rwa [List.takeWhile_nil, List.append_nil] at happend
  have hdrop : (decimalDigits n).dropWhile isDigit = [] := by
    have happend : (decimalDigits n ++ []).dropWhile isDigit = [].dropWhile isDigit :=
      List.dropWhile_append_of_pos hall
    rwa [List.dropWhile_nil, List.append_nil] at happend
  have hne : decimalDigits n ≠ [] := Nat.toDigits_ne_nil
  have hzero : (decimalDigits n).head? = some '0' → (decimalDigits n).length = 1 := by
    intro hhead
    rcases Nat.eq_zero_or_pos n with rfl | hn
    · rfl
    · exact absurd hhead (head?_decimalDigits hn)
  have hguard : guard (decimalDigits n ≠ [] ∧
      ((decimalDigits n).head? = some '0' → (decimalDigits n).length = 1)) = some () :=
    if_pos ⟨hne, hzero⟩
  constructor
  · rw [Literal.ofChars?]
    · rw [htake, hdrop, hguard]
      rfl
    · intro rest hdigits
      have hminus := hall '-' (hdigits ▸ List.mem_cons_self)
      cases hminus
  · rw [Literal.ofChars?, htake, hdrop, hguard]
    rfl

theorem Number.readable_int {i : Int} (hlow : -(capacity 63 : Int) ≤ i) (hhigh : i < capacity 64) :
    (Number.int i).Readable := by
  cases i with
  | ofNat n =>
    rw [Readable, writeNumber_ofNat, (ofChars?_decimalDigits n).1, Option.bind_some,
      Literal.number?, natOfDigits_decimalDigits]
    exact if_pos ⟨rfl, rfl, rfl, Int.ofNat_lt.1 hhigh⟩
  | negSucc n =>
    rw [Readable, writeNumber_negSucc, (ofChars?_decimalDigits (n + 1)).2, Option.bind_some,
      Literal.number?, natOfDigits_decimalDigits]
    dsimp only
    rw [if_neg (fun h ↦ Bool.noConfusion h.2.2.1), if_pos ⟨rfl, rfl, rfl, Nat.succ_pos n, by omega⟩]
    rfl

mutual

/-- A document that is read back from its text inside of a number of open containers: its numbers
are, and it does not nest too deep. -/
def Readable (level : Nat) : Json → Prop
  | .null | .bool _ | .string _ => True
  | .number n => n.Readable
  | .array items => level + 1 < maxDepth ∧ ItemsReadable (level + 1) items
  | .object members => level + 1 < maxDepth ∧ MembersReadable (level + 1) members

/-- Items that are read back. -/
def ItemsReadable (level : Nat) : List Json → Prop
  | [] => True
  | j :: rest => j.Readable level ∧ ItemsReadable level rest

/-- Members whose values are read back. -/
def MembersReadable (level : Nat) : List (String × Json) → Prop
  | [] => True
  | (_, v) :: rest => v.Readable level ∧ MembersReadable level rest

end

mutual

/-- A document whose numbers are read as numbers from its text, if not always as themselves. -/
def Legible : Json → Prop
  | .null | .bool _ | .string _ => True
  | .number n => n.reread?.isSome
  | .array items => ItemsLegible items
  | .object members => MembersLegible members

/-- Items whose numbers are read as numbers. -/
def ItemsLegible : List Json → Prop
  | [] => True
  | j :: rest => j.Legible ∧ ItemsLegible rest

/-- Members whose values have numbers that are read as numbers. -/
def MembersLegible : List (String × Json) → Prop
  | [] => True
  | (_, v) :: rest => v.Legible ∧ MembersLegible rest

end

mutual

/-- The document that the text of a document is read as: numbers may come back as others. -/
def reread : Json → Json
  | .number n => .number (n.reread?.getD n)
  | .array items => .array (rereadItems items)
  | .object members => .object (rereadMembers members)
  | j => j

/-- The items that the texts of items are read as. -/
def rereadItems : List Json → List Json
  | [] => []
  | j :: rest => j.reread :: rereadItems rest

/-- The members that the texts of members are read as. -/
def rereadMembers : List (String × Json) → List (String × Json)
  | [] => []
  | (k, v) :: rest => (k, v.reread) :: rereadMembers rest

end

mutual

/-- How many arrays and objects are in each other. -/
def depth : Json → Nat
  | .array items => depthOfItems items + 1
  | .object members => depthOfMembers members + 1
  | _ => 0

/-- How many arrays and objects are in each other in any of the items. -/
def depthOfItems : List Json → Nat
  | [] => 0
  | j :: rest => max j.depth (depthOfItems rest)

/-- How many arrays and objects are in each other in any of the members. -/
def depthOfMembers : List (String × Json) → Nat
  | [] => 0
  | (_, v) :: rest => max v.depth (depthOfMembers rest)

end

mutual

theorem Readable.reread_eq {level : Nat} :
    (j : Json) → j.Readable level → j.Legible ∧ j.reread = j
  | .null, _ | .bool _, _ | .string _, _ => ⟨trivial, rfl⟩
  | .number n, hj => by
    have hn : n.reread? = some n := hj
    refine ⟨?_, ?_⟩
    · rw [Legible, hn]
      rfl
    · rw [reread, hn]
      rfl
  | .array items, hj => by
    obtain ⟨hlegible, heq⟩ := ItemsReadable.reread_eq items hj.2
    exact ⟨hlegible, congrArg Json.array heq⟩
  | .object members, hj => by
    obtain ⟨hlegible, heq⟩ := MembersReadable.reread_eq members hj.2
    exact ⟨hlegible, congrArg Json.object heq⟩

theorem ItemsReadable.reread_eq {level : Nat} :
    (items : List Json) → ItemsReadable level items →
      ItemsLegible items ∧ rereadItems items = items
  | [], _ => ⟨trivial, rfl⟩
  | j :: rest, hj => by
    obtain ⟨hlegible, heq⟩ := Readable.reread_eq j hj.1
    obtain ⟨hrest, hrestEq⟩ := ItemsReadable.reread_eq rest hj.2
    refine ⟨⟨hlegible, hrest⟩, ?_⟩
    rw [rereadItems, heq, hrestEq]

theorem MembersReadable.reread_eq {level : Nat} :
    (members : List (String × Json)) → MembersReadable level members →
      MembersLegible members ∧ rereadMembers members = members
  | [], _ => ⟨trivial, rfl⟩
  | (k, v) :: rest, hv => by
    obtain ⟨hlegible, heq⟩ := Readable.reread_eq v hv.1
    obtain ⟨hrest, hrestEq⟩ := MembersReadable.reread_eq rest hv.2
    refine ⟨⟨hlegible, hrest⟩, ?_⟩
    rw [rereadMembers, heq, hrestEq]

end

mutual

theorem Readable.depth_lt {level : Nat} (hlevel : level < maxDepth) :
    (j : Json) → j.Readable level → level + j.depth < maxDepth
  | .null, _ | .bool _, _ | .string _, _ | .number _, _ => hlevel
  | .array items, hj => by
    have hitems := ItemsReadable.depth_lt hj.1 items hj.2
    rw [depth]
    omega
  | .object members, hj => by
    have hmembers := MembersReadable.depth_lt hj.1 members hj.2
    rw [depth]
    omega

theorem ItemsReadable.depth_lt {level : Nat} (hlevel : level < maxDepth) :
    (items : List Json) → ItemsReadable level items → level + depthOfItems items < maxDepth
  | [], _ => hlevel
  | j :: rest, hj => by
    have hfirst := Readable.depth_lt hlevel j hj.1
    have hrest := ItemsReadable.depth_lt hlevel rest hj.2
    rw [depthOfItems]
    omega

theorem MembersReadable.depth_lt {level : Nat} (hlevel : level < maxDepth) :
    (members : List (String × Json)) → MembersReadable level members →
      level + depthOfMembers members < maxDepth
  | [], _ => hlevel
  | (_, v) :: rest, hv => by
    have hfirst := Readable.depth_lt hlevel v hv.1
    have hrest := MembersReadable.depth_lt hlevel rest hv.2
    rw [depthOfMembers]
    omega

end

mutual

/-- The tokens of a document. -/
def tokens : Json → List Token
  | .array items => .openArray :: (itemTokens items ++ [.closeArray])
  | .object members => .openObject :: (memberTokens members ++ [.closeObject])
  | j => [.scalar j]

/-- The tokens of items with commas between them. -/
def itemTokens : List Json → List Token
  | [] => []
  | [j] => j.tokens
  | j :: rest => j.tokens ++ .comma :: itemTokens rest

/-- The tokens of members with commas between them. -/
def memberTokens : List (String × Json) → List Token
  | [] => []
  | [(k, v)] => .scalar (.string k) :: .colon :: v.tokens
  | (k, v) :: rest =>
    .scalar (.string k) :: .colon :: (v.tokens ++ .comma :: memberTokens rest)

end

/-! ### From text to tokens -/

/-- A text that a number does not reach into. -/
def EndsNumber (rest : List Char) : Prop := rest.takeWhile isNumberChar = []

theorem endsNumber_cons {c : Char} (hc : isNumberChar c = false) (rest : List Char) :
    EndsNumber (c :: rest) := by
  rw [EndsNumber, List.takeWhile_cons, hc, if_neg Bool.false_ne_true]

theorem isSpace_of_isNumberChar {c : Char} (hc : isNumberChar c = true) : isSpace c = false := by
  cases hspace : isSpace c with
  | false => rfl
  | true =>
    simp only [isSpace, Bool.or_eq_true, beq_iff_eq] at hspace
    rcases hspace with ((rfl | rfl) | rfl) | rfl <;> cases hc

theorem token?_of_isNumberChar {c : Char} (hc : isNumberChar c = true) (cs : List Char) :
    token? c cs = (Literal.ofChars? (c :: cs.takeWhile isNumberChar)).bind fun literal ↦
      literal.number?.map fun n ↦ (.scalar (.number n), (cs.takeWhile isNumberChar).length) := by
  rw [token?.eq_def]
  split
  · cases hc
  · cases hc
  · cases hc
  · cases hc
  · cases hc
  · cases hc
  · cases hc
  · rw [if_pos hc]
    refine congrArg (Option.bind _) ?_
    funext literal
    cases literal.number? <;> rfl

theorem Number.tokens?_append {n n' : Number} (hn : n.reread? = some n') {rest : List Char}
    (hrest : EndsNumber rest) :
    tokens? (writeNumber n ++ rest) = (tokens? rest).map (.scalar (.number n') :: ·) := by
  obtain ⟨literal, hliteral, hnumber⟩ := Option.bind_eq_some_iff.1 hn
  rcases ofNumberChars_writeNumber n with hchars | hnull
  · cases hwrite : writeNumber n with
    | nil =>
      rw [hwrite] at hliteral
      cases hliteral
    | cons c more =>
      rw [hwrite] at hchars hliteral
      obtain ⟨hc, hmore⟩ := List.forall_mem_cons.1 hchars
      have htake : (more ++ rest).takeWhile isNumberChar = more := by
        rw [List.takeWhile_append_of_pos hmore, hrest, List.append_nil]
      rw [List.cons_append, tokens?_cons (isSpace_of_isNumberChar hc), token?_of_isNumberChar hc,
        htake, hliteral, Option.bind_some, hnumber, Option.map_some, Option.bind_some]
      dsimp only
      rw [List.drop_left]
  · rw [hnull] at hliteral
    cases hliteral

theorem tokens?_mark {c : Char} {t : Token} (hspace : isSpace c = false)
    (htoken : ∀ cs, token? c cs = some (t, 0)) (rest : List Char) :
    tokens? (c :: rest) = (tokens? rest).map (t :: ·) := by
  rw [tokens?_cons hspace, htoken, Option.bind_some]
  rfl

theorem tokens?_word {c : Char} (more : List Char) {rest : List Char} {t : Token}
    (hspace : isSpace c = false)
    (htoken : token? c (more ++ rest) = some (t, more.length)) :
    tokens? (c :: (more ++ rest)) = (tokens? rest).map (t :: ·) := by
  rw [tokens?_cons hspace, htoken, Option.bind_some]
  dsimp only
  rw [List.drop_left]

mutual

theorem tokens?_write_append {rest : List Char} (hrest : EndsNumber rest) :
    (j : Json) → j.Legible →
      tokens? (j.write ++ rest) = (tokens? rest).map (j.reread.tokens ++ ·)
  | .null, _ => tokens?_word ['u', 'l', 'l'] rfl rfl
  | .bool true, _ => tokens?_word ['r', 'u', 'e'] rfl rfl
  | .bool false, _ => tokens?_word ['a', 'l', 's', 'e'] rfl rfl
  | .number n, hj => by
    obtain ⟨n', hn'⟩ := Option.isSome_iff_exists.1 hj
    rw [reread, hn', Option.getD_some]
    exact Number.tokens?_append hn' hrest
  | .string s, _ => tokens?_writeString_append s rest
  | .array items, hj => by
    have hitems := tokens?_writeItems_append (endsNumber_cons (c := ']') rfl rest) items hj
    rw [write, List.cons_append, List.append_assoc, List.singleton_append,
      tokens?_mark rfl (fun _ ↦ rfl), hitems, tokens?_mark rfl (fun _ ↦ rfl), Option.map_map,
      Option.map_map]
    refine congrArg (Option.map · _) ?_
    funext ts
    rw [reread, tokens, List.cons_append, List.append_assoc]
    rfl
  | .object members, hj => by
    have hmembers := tokens?_writeMembers_append (endsNumber_cons (c := '\x7d') rfl rest) members
      hj
    rw [write, List.cons_append, List.append_assoc, List.singleton_append,
      tokens?_mark rfl (fun _ ↦ rfl), hmembers, tokens?_mark rfl (fun _ ↦ rfl), Option.map_map,
      Option.map_map]
    refine congrArg (Option.map · _) ?_
    funext ts
    rw [reread, tokens, List.cons_append, List.append_assoc]
    rfl

theorem tokens?_writeItems_append {rest : List Char} (hrest : EndsNumber rest) :
    (items : List Json) → ItemsLegible items →
      tokens? (writeItems items ++ rest) = (tokens? rest).map (itemTokens (rereadItems items) ++ ·)
  | [], _ => Option.map_id'.symm
  | [j], hj => tokens?_write_append hrest j hj.1
  | j :: j' :: items, hj => by
    have hitems := tokens?_writeItems_append hrest (j' :: items) hj.2
    rw [writeItems_cons_cons, List.append_assoc, List.cons_append,
      tokens?_write_append (endsNumber_cons rfl _) j hj.1, tokens?_mark rfl (fun _ ↦ rfl), hitems,
      Option.map_map, Option.map_map]
    refine congrArg (Option.map · _) ?_
    funext ts
    exact (List.append_assoc j.reread.tokens (.comma :: itemTokens (rereadItems (j' :: items)))
      ts).symm

theorem tokens?_writeMembers_append {rest : List Char} (hrest : EndsNumber rest) :
    (members : List (String × Json)) → MembersLegible members →
      tokens? (writeMembers members ++ rest) =
        (tokens? rest).map (memberTokens (rereadMembers members) ++ ·)
  | [], _ => Option.map_id'.symm
  | [(k, v)], hv => by
    rw [writeMembers, List.append_assoc, List.cons_append, tokens?_writeString_append,
      tokens?_mark rfl (fun _ ↦ rfl), tokens?_write_append hrest v hv.1, Option.map_map,
      Option.map_map]
    rfl
  | (k, v) :: m :: members, hv => by
    have hmembers := tokens?_writeMembers_append hrest (m :: members) hv.2
    rw [writeMembers_cons_cons, List.append_assoc, List.cons_append, List.append_assoc,
      List.cons_append, tokens?_writeString_append, tokens?_mark rfl (fun _ ↦ rfl),
      tokens?_write_append (endsNumber_cons rfl _) v hv.1, tokens?_mark rfl (fun _ ↦ rfl), hmembers,
      Option.map_map, Option.map_map, Option.map_map, Option.map_map]
    refine congrArg (Option.map · _) ?_
    funext ts
    exact congrArg (.scalar (.string k) :: .colon :: ·)
      (List.append_assoc v.reread.tokens (.comma :: memberTokens (rereadMembers (m :: members)))
        ts).symm

end

/-! ### From tokens to documents -/

theorem itemTokens_cons_cons (j j' : Json) (rest : List Json) :
    itemTokens (j :: j' :: rest) = j.tokens ++ .comma :: itemTokens (j' :: rest) := rfl

/-- The tokens of an item come first, and they do not close the array. -/
theorem value?_openArray {stack : List Frame} (hdepth : stack.length + 1 < maxDepth) (j : Json)
    (items : List Json) (ts : List Token) :
    value? stack (.openArray :: (itemTokens (j :: items) ++ ts)) =
      value? (.array [] :: stack) (itemTokens (j :: items) ++ ts) := by
  rw [value?.eq_def]
  dsimp only
  rw [if_neg (Nat.not_le.2 hdepth)]
  cases items <;> cases j <;> rfl

/-- The tokens of members without the first key. -/
def openTokens (members : List (String × Json)) : List Token := (memberTokens members).drop 2

theorem memberTokens_cons (k : String) (v : Json) (members : List (String × Json)) :
    memberTokens ((k, v) :: members) =
      .scalar (.string k) :: .colon :: openTokens ((k, v) :: members) := by
  cases members <;> rfl

theorem value?_openObject {stack : List Frame} (hdepth : stack.length + 1 < maxDepth) (k : String)
    (v : Json) (members : List (String × Json)) (ts : List Token) :
    value? stack (.openObject :: (memberTokens ((k, v) :: members) ++ ts)) =
      value? (.object [] k :: stack) (openTokens ((k, v) :: members) ++ ts) := by
  rw [value?.eq_def, memberTokens_cons]
  dsimp only
  rw [if_neg (Nat.not_le.2 hdepth)]
  rfl

theorem depth_array_lt {level : Nat} {items : List Json}
    (h : level + (array items).depth < maxDepth) : level + 1 + depthOfItems items < maxDepth := by
  rw [depth] at h
  omega

theorem depth_object_lt {level : Nat} {members : List (String × Json)}
    (h : level + (object members).depth < maxDepth) :
    level + 1 + depthOfMembers members < maxDepth := by
  rw [depth] at h
  omega

theorem depthOfItems_cons_lt {level : Nat} {j : Json} {items : List Json}
    (h : level + depthOfItems (j :: items) < maxDepth) :
    level + j.depth < maxDepth ∧ level + depthOfItems items < maxDepth := by
  rw [depthOfItems] at h
  omega

theorem depthOfMembers_cons_lt {level : Nat} {k : String} {v : Json}
    {members : List (String × Json)} (h : level + depthOfMembers ((k, v) :: members) < maxDepth) :
    level + v.depth < maxDepth ∧ level + depthOfMembers members < maxDepth := by
  rw [depthOfMembers] at h
  omega

mutual

theorem value?_tokens_append (stack : List Frame) (ts : List Token) :
    (j : Json) → stack.length + j.depth < maxDepth →
      value? stack (j.tokens ++ ts) = close? stack j ts
  | .null, _ => rfl
  | .bool _, _ => rfl
  | .number _, _ => rfl
  | .string _, _ => rfl
  | .array [], hj => by
    rw [tokens, itemTokens, List.nil_append, List.cons_append, value?.eq_def]
    dsimp only
    have hlt : stack.length + 1 < maxDepth := depth_array_lt hj
    rw [if_neg (Nat.not_le.2 hlt)]
    rfl
  | .array (j :: items), hj => by
    have hitems := depth_array_lt hj
    rw [tokens, List.cons_append, List.append_assoc,
      value?_openArray (Nat.lt_of_le_of_lt (Nat.le_add_right _ _) hitems)]
    exact value?_itemTokens_append stack ts [] j items hitems
  | .object [], hj => by
    rw [tokens, memberTokens, List.nil_append, List.cons_append, value?.eq_def]
    dsimp only
    have hlt : stack.length + 1 < maxDepth := depth_object_lt hj
    rw [if_neg (Nat.not_le.2 hlt)]
    rfl
  | .object ((k, v) :: members), hj => by
    have hmembers := depth_object_lt hj
    rw [tokens, List.cons_append, List.append_assoc,
      value?_openObject (Nat.lt_of_le_of_lt (Nat.le_add_right _ _) hmembers)]
    exact value?_openTokens_append stack ts [] k v members hmembers
termination_by j => sizeOf j

theorem value?_itemTokens_append (stack : List Frame) (ts : List Token) (done : List Json)
    (j : Json) : (items : List Json) → stack.length + 1 + depthOfItems (j :: items) < maxDepth →
      value? (.array done :: stack) (itemTokens (j :: items) ++ .closeArray :: ts) =
        close? stack (.array (done.reverse ++ j :: items)) ts
  | [], hj => by
    rw [itemTokens, value?_tokens_append (.array done :: stack) _ j (depthOfItems_cons_lt hj).1,
      close?, List.reverse_cons]
  | j' :: items, hj => by
    have hitems := value?_itemTokens_append stack ts (j :: done) j' items
      (depthOfItems_cons_lt hj).2
    rw [List.reverse_cons, List.append_assoc, List.singleton_append] at hitems
    rw [itemTokens_cons_cons, List.append_assoc, List.cons_append,
      value?_tokens_append (.array done :: stack) _ j (depthOfItems_cons_lt hj).1,
      close?, hitems]
termination_by items => sizeOf (j :: items)

theorem value?_openTokens_append (stack : List Frame) (ts : List Token)
    (done : List (String × Json)) (k : String) (v : Json) :
    (members : List (String × Json)) →
      stack.length + 1 + depthOfMembers ((k, v) :: members) < maxDepth →
      value? (.object done k :: stack) (openTokens ((k, v) :: members) ++ .closeObject :: ts) =
        close? stack (.object (done.reverse ++ (k, v) :: members)) ts
  | [], hv => by
    have hopen : openTokens [(k, v)] = v.tokens := rfl
    rw [hopen, value?_tokens_append (.object done k :: stack) _ v
      (depthOfMembers_cons_lt hv).1, close?, List.reverse_cons]
  | (k', v') :: members, hv => by
    have hmembers := value?_openTokens_append stack ts ((k, v) :: done) k' v' members
      (depthOfMembers_cons_lt hv).2
    rw [List.reverse_cons, List.append_assoc, List.singleton_append] at hmembers
    have hopen : openTokens ((k, v) :: (k', v') :: members) =
        v.tokens ++ .comma :: memberTokens ((k', v') :: members) := rfl
    rw [hopen, List.append_assoc, List.cons_append,
      value?_tokens_append (.object done k :: stack) _ v
        (depthOfMembers_cons_lt hv).1, memberTokens_cons,
      List.cons_append, List.cons_append, close?, hmembers]
termination_by members => sizeOf ((k, v) :: members)

end

/-! ### Documents that nest too deep -/

theorem value?_openArray_of_le {stack : List Frame} (h : maxDepth ≤ stack.length + 1)
    (ts : List Token) : value? stack (.openArray :: ts) = none := by
  rw [value?.eq_def]
  exact if_pos h

theorem value?_openObject_of_le {stack : List Frame} (h : maxDepth ≤ stack.length + 1)
    (ts : List Token) : value? stack (.openObject :: ts) = none := by
  rw [value?.eq_def]
  exact if_pos h

mutual

theorem value?_tokens_of_le (stack : List Frame) (hstack : stack.length < maxDepth)
    (ts : List Token) : (j : Json) → maxDepth ≤ stack.length + j.depth →
      value? stack (j.tokens ++ ts) = none
  | .null, hj | .bool _, hj | .number _, hj | .string _, hj => absurd hj (Nat.not_le.2 hstack)
  | .array [], hj => value?_openArray_of_le hj _
  | .array (j :: items), hj => by
    rw [tokens, List.cons_append, List.append_assoc]
    by_cases hopen : stack.length + 1 < maxDepth
    · rw [value?_openArray hopen]
      refine value?_itemTokens_of_le stack hopen ts [] j items ?_
      rw [depth] at hj
      omega
    · exact value?_openArray_of_le (Nat.not_lt.1 hopen) _
  | .object [], hj => value?_openObject_of_le hj _
  | .object ((k, v) :: members), hj => by
    rw [tokens, List.cons_append, List.append_assoc]
    by_cases hopen : stack.length + 1 < maxDepth
    · rw [value?_openObject hopen]
      refine value?_openTokens_of_le stack hopen ts [] k v members ?_
      rw [depth] at hj
      omega
    · exact value?_openObject_of_le (Nat.not_lt.1 hopen) _
termination_by j => sizeOf j

theorem value?_itemTokens_of_le (stack : List Frame) (hstack : stack.length + 1 < maxDepth)
    (ts : List Token) (done : List Json) (j : Json) :
    (items : List Json) → maxDepth ≤ stack.length + 1 + depthOfItems (j :: items) →
      value? (.array done :: stack) (itemTokens (j :: items) ++ .closeArray :: ts) = none
  | [], hj => by
    rw [depthOfItems, depthOfItems, Nat.max_zero] at hj
    exact value?_tokens_of_le (.array done :: stack) hstack _ j hj
  | j' :: items, hj => by
    rw [itemTokens_cons_cons, List.append_assoc]
    by_cases hfirst : stack.length + 1 + j.depth < maxDepth
    · rw [value?_tokens_append (.array done :: stack) _ j hfirst, List.cons_append, close?]
      refine value?_itemTokens_of_le stack hstack ts (j :: done) j' items ?_
      rw [depthOfItems] at hj
      omega
    · exact value?_tokens_of_le (.array done :: stack) hstack _ j (Nat.not_lt.1 hfirst)
termination_by items => sizeOf (j :: items)

theorem value?_openTokens_of_le (stack : List Frame) (hstack : stack.length + 1 < maxDepth)
    (ts : List Token) (done : List (String × Json)) (k : String) (v : Json) :
    (members : List (String × Json)) →
      maxDepth ≤ stack.length + 1 + depthOfMembers ((k, v) :: members) →
      value? (.object done k :: stack) (openTokens ((k, v) :: members) ++ .closeObject :: ts) = none
  | [], hv => by
    rw [depthOfMembers, depthOfMembers, Nat.max_zero] at hv
    exact value?_tokens_of_le (.object done k :: stack) hstack _ v hv
  | (k', v') :: members, hv => by
    have hopen : openTokens ((k, v) :: (k', v') :: members) =
        v.tokens ++ .comma :: memberTokens ((k', v') :: members) := rfl
    rw [hopen, List.append_assoc]
    by_cases hfirst : stack.length + 1 + v.depth < maxDepth
    · rw [value?_tokens_append (.object done k :: stack) _ v hfirst, List.cons_append,
        memberTokens_cons, List.cons_append, List.cons_append, close?]
      refine value?_openTokens_of_le stack hstack ts ((k, v) :: done) k' v' members ?_
      rw [depthOfMembers] at hv
      omega
    · exact value?_tokens_of_le (.object done k :: stack) hstack _ v (Nat.not_lt.1 hfirst)
termination_by members => sizeOf ((k, v) :: members)

end

mutual

theorem depth_reread : (j : Json) → j.reread.depth = j.depth
  | .null | .bool _ | .string _ | .number _ => rfl
  | .array items => by rw [reread, depth, depth, depthOfItems_reread items]
  | .object members => by rw [reread, depth, depth, depthOfMembers_reread members]

theorem depthOfItems_reread :
    (items : List Json) → depthOfItems (rereadItems items) = depthOfItems items
  | [] => rfl
  | j :: rest => by
    rw [rereadItems, depthOfItems, depthOfItems, depth_reread j, depthOfItems_reread rest]

theorem depthOfMembers_reread : (members : List (String × Json)) →
    depthOfMembers (rereadMembers members) = depthOfMembers members
  | [] => rfl
  | (k, v) :: rest => by
    rw [rereadMembers, depthOfMembers, depthOfMembers, depth_reread v, depthOfMembers_reread rest]

end

theorem read?_text_eq {j : Json} (hj : j.Legible) : read? j.text = value? [] j.reread.tokens := by
  have hends : EndsNumber [] := rfl
  have htokens := tokens?_write_append hends j hj
  rw [List.append_nil] at htokens
  rw [read?, text, String.toList_ofList, htokens, tokens?, Option.map_some, Option.bind_some,
    List.append_nil, ofTokens?]

/-- The compact text of a document that does not nest too deep is read as the same document, up to
what its numbers are read as. -/
theorem read?_text_reread {j : Json} (hj : j.Legible) (hdepth : j.depth < maxDepth) :
    read? j.text = some j.reread := by
  have hdepth' : ([] : List Frame).length + j.reread.depth < maxDepth := by
    rwa [List.length_nil, Nat.zero_add, depth_reread]
  have hvalue := value?_tokens_append [] [] j.reread hdepth'
  rw [List.append_nil] at hvalue
  rw [read?_text_eq hj, hvalue, close?]

/-- The compact text of a document that nests too deep is not read. -/
theorem read?_text_of_le {j : Json} (hj : j.Legible) (hdepth : maxDepth ≤ j.depth) :
    read? j.text = none := by
  have hdepth' : maxDepth ≤ ([] : List Frame).length + j.reread.depth := by
    rwa [List.length_nil, Nat.zero_add, depth_reread]
  have hvalue := value?_tokens_of_le [] (by decide) [] j.reread hdepth'
  rw [List.append_nil] at hvalue
  rw [read?_text_eq hj, hvalue]

/-- **A document is read back from its compact text.** -/
theorem read?_text {j : Json} (hj : j.Readable 0) : read? j.text = some j := by
  obtain ⟨hlegible, heq⟩ := Readable.reread_eq j hj
  have hdepth := Readable.depth_lt (by decide) j hj
  rw [Nat.zero_add] at hdepth
  rw [read?_text_reread hlegible hdepth, heq]

theorem parseBytes?_text {j : Json} (hj : j.Readable 0) (hcanonical : j.canonical = j) :
    parseBytes? (Text.Utf8.encode j.text) = some j := by
  rw [parseBytes?, Text.Utf8.decode?_encode, Option.bind_some, parse?, read?_text hj,
    Option.map_some, hcanonical]

end CallCheck.Json

import CallCheck.Json.Read
import CallCheck.Json.Write

/-!
# JSON whose strings change

What is written between the quotes of a string never matters to the rest of a document. A text is
taken as a list of parts: characters that stand for themselves, and quoted strings. `Json.parts` are
the parts of a document's compact text.

## Main statement

`Json.read?_written_map`: if the quoted strings of a text are changed by a function, then the text
is read as the document that it was read as before, with the function done to all of its strings.
This holds of any parts, whatever they write, so it also says that a text that cannot be read is not
mended by changing its strings.
-/

namespace CallCheck.Json

/-! ## A function on the strings of a document -/

mutual

/-- The document with a function done to every string in it, the keys included. -/
def mapStrings (f : String → String) : Json → Json
  | .null => .null
  | .bool b => .bool b
  | .number n => .number n
  | .string s => .string (f s)
  | .array items => .array (mapItems f items)
  | .object members => .object (mapMembers f members)

/-- Items with a function done to every string in them. -/
def mapItems (f : String → String) : List Json → List Json
  | [] => []
  | j :: rest => j.mapStrings f :: mapItems f rest

/-- Members with a function done to every key and every string in them. -/
def mapMembers (f : String → String) : List (String × Json) → List (String × Json)
  | [] => []
  | (k, v) :: rest => (f k, v.mapStrings f) :: mapMembers f rest

end

/-- What is left of a document without its strings: its structure, its numbers and its words. -/
def skeleton : Json → Json := mapStrings fun _ ↦ ""

variable {f : String → String}

theorem mapItems_eq_map (items : List Json) : mapItems f items = items.map (mapStrings f) := by
  induction items with
  | nil => rfl
  | cons j rest ih => rw [mapItems, ih, List.map_cons]

theorem mapMembers_eq_map (members : List (String × Json)) :
    mapMembers f members = members.map (Prod.map f (mapStrings f)) := by
  induction members with
  | nil => rfl
  | cons m rest ih =>
    obtain ⟨k, v⟩ := m
    rw [mapMembers, ih, List.map_cons]
    rfl

/-! ## Reading tokens whose strings change -/

/-- A token with a function done to the string that it may be. -/
def Token.map (f : String → String) : Token → Token
  | .scalar j => .scalar (j.mapStrings f)
  | .openArray => .openArray
  | .closeArray => .closeArray
  | .openObject => .openObject
  | .closeObject => .closeObject
  | .comma => .comma
  | .colon => .colon

/-- An open container with a function done to every string that it holds. -/
def Frame.map (f : String → String) : Frame → Frame
  | .array items => .array (items.map (mapStrings f))
  | .object members key => .object (members.map (Prod.map f (mapStrings f))) (f key)

mutual

theorem value?_map (stack : List Frame) (ts : List Token) :
    value? (stack.map (Frame.map f)) (ts.map (Token.map f)) =
      (value? stack ts).map (mapStrings f) := by
  cases ts with
  | nil => rfl
  | cons t ts =>
    cases t with
    | scalar j =>
      rw [List.map_cons, Token.map, value?, value?]
      exact close?_map stack j ts
    | openArray =>
      rw [List.map_cons, Token.map, value?.eq_def, value?.eq_def]
      dsimp only
      rw [List.length_map]
      split
      · rfl
      · cases ts with
        | nil => exact value?_map (.array [] :: stack) []
        | cons t ts =>
          cases t with
          | closeArray => exact close?_map stack (.array []) ts
          | _ => exact value?_map (.array [] :: stack) (_ :: ts)
    | openObject =>
      rw [List.map_cons, Token.map, value?.eq_def, value?.eq_def]
      dsimp only
      rw [List.length_map]
      split
      · rfl
      · cases ts with
        | nil => rfl
        | cons t ts =>
          cases t with
          | closeObject => exact close?_map stack (.object []) ts
          | scalar j =>
            cases j with
            | string key =>
              cases ts with
              | nil => rfl
              | cons t ts =>
                cases t with
                | colon => exact value?_map (.object [] key :: stack) ts
                | _ => rfl
            | _ => rfl
          | _ => rfl
    | _ => rfl
termination_by ts.length

theorem close?_map (stack : List Frame) (j : Json) (ts : List Token) :
    close? (stack.map (Frame.map f)) (j.mapStrings f) (ts.map (Token.map f)) =
      (close? stack j ts).map (mapStrings f) := by
  cases stack with
  | nil => cases ts <;> rfl
  | cons frame stack =>
    cases ts with
    | nil => cases frame <;> rfl
    | cons t ts =>
      cases frame with
      | array items =>
        cases t with
        | comma => exact value?_map (.array (j :: items) :: stack) ts
        | closeArray =>
          have hclose := close?_map stack (.array (j :: items).reverse) ts
          rw [mapStrings, mapItems_eq_map, List.map_reverse] at hclose
          exact hclose
        | _ => rfl
      | object members key =>
        cases t with
        | comma =>
          cases ts with
          | nil => rfl
          | cons t ts =>
            cases t with
            | scalar k =>
              cases k with
              | string next =>
                cases ts with
                | nil => rfl
                | cons t ts =>
                  cases t with
                  | colon => exact value?_map (.object ((key, j) :: members) next :: stack) ts
                  | _ => rfl
              | _ => rfl
            | _ => rfl
        | closeObject =>
          have hclose := close?_map stack (.object ((key, j) :: members).reverse) ts
          rw [mapStrings, mapMembers_eq_map, List.map_reverse] at hclose
          exact hclose
        | _ => rfl
termination_by ts.length

end

/-! ## Quoted strings -/

theorem value?_digit {n : Nat} (hn : n < 16) : Text.Hex.value? (Text.Hex.digit n) = some n := by
  revert n
  decide

/-- A character that stands for itself inside a quoted string. -/
def IsPlain (c : Char) : Prop := c ≠ '"' ∧ c ≠ '\\' ∧ 0x20 ≤ c.toNat

instance : DecidablePred IsPlain := fun c ↦
  inferInstanceAs (Decidable (c ≠ '"' ∧ c ≠ '\\' ∧ 0x20 ≤ c.toNat))

theorem unescape?_control {c : Char} (hc : c.toNat < 0x20) (rest : List Char) :
    unescape? ('u' :: '0' :: '0' :: Text.Hex.digit (c.toNat / 16) ::
      Text.Hex.digit (c.toNat % 16) :: rest) = some (c, 5) := by
  have hhigh : Text.Hex.value? (Text.Hex.digit (c.toNat / 16)) = some (c.toNat / 16) :=
    value?_digit (by omega)
  have hlow : Text.Hex.value? (Text.Hex.digit (c.toNat % 16)) = some (c.toNat % 16) :=
    value?_digit (by omega)
  have hzero : pair? '0' '0' = some 0 := rfl
  have hpair : pair? (Text.Hex.digit (c.toNat / 16)) (Text.Hex.digit (c.toNat % 16)) =
      some c.toNat := by
    rw [pair?, hhigh, hlow]
    exact congrArg some (Nat.div_add_mod' c.toNat 16)
  have hunit : unit? ('0' :: '0' :: Text.Hex.digit (c.toNat / 16) ::
      Text.Hex.digit (c.toNat % 16) :: rest) = some c.toNat := by
    rw [unit?, hzero, hpair]
    exact congrArg some (Nat.zero_add c.toNat)
  rw [unescape?, hunit]
  simp only [Option.bind_eq_bind, Option.bind_some]
  rw [if_neg (by omega), if_neg (by omega), Char.ofNat_toNat]
  rfl

theorem digit_ne_brace {n : Nat} (hn : n < 16) :
    Text.Hex.digit n ≠ '\x7b' ∧ Text.Hex.digit n ≠ '\x7d' := by
  revert n
  decide

/-- A character is plain, or it is escaped without braces and read back from its escape. -/
theorem escape_cases (c : Char) :
    (∃ e, escape c = '\\' :: e ∧ ¬IsPlain c ∧ (∀ a ∈ e, a ≠ '\x7b' ∧ a ≠ '\x7d') ∧
        ∀ rest, unescape? (e ++ rest) = some (c, e.length)) ∨
      (escape c = [c] ∧ IsPlain c) := by
  by_cases hquote : c = '"'
  · subst hquote
    exact .inl ⟨['"'], rfl, by decide, List.forall_mem_singleton.2 (by decide), fun rest ↦ rfl⟩
  by_cases hbackslash : c = '\\'
  · subst hbackslash
    exact .inl ⟨['\\'], rfl, by decide, List.forall_mem_singleton.2 (by decide), fun rest ↦ rfl⟩
  by_cases hnewline : c = '\n'
  · subst hnewline
    exact .inl ⟨['n'], rfl, by decide, List.forall_mem_singleton.2 (by decide), fun rest ↦ rfl⟩
  by_cases hreturn : c = '\r'
  · subst hreturn
    exact .inl ⟨['r'], rfl, by decide, List.forall_mem_singleton.2 (by decide), fun rest ↦ rfl⟩
  by_cases htab : c = '\t'
  · subst htab
    exact .inl ⟨['t'], rfl, by decide, List.forall_mem_singleton.2 (by decide), fun rest ↦ rfl⟩
  by_cases hback : c = '\x08'
  · subst hback
    exact .inl ⟨['b'], rfl, by decide, List.forall_mem_singleton.2 (by decide), fun rest ↦ rfl⟩
  by_cases hfeed : c = '\x0c'
  · subst hfeed
    exact .inl ⟨['f'], rfl, by decide, List.forall_mem_singleton.2 (by decide), fun rest ↦ rfl⟩
  rw [escape, if_neg hquote, if_neg hbackslash, if_neg hnewline, if_neg hreturn, if_neg htab,
    if_neg hback, if_neg hfeed]
  by_cases hcontrol : c.toNat < 0x20
  · rw [if_pos hcontrol]
    refine .inl ⟨_, rfl, fun hplain ↦ Nat.not_lt.2 hplain.2.2 hcontrol, ?_,
      unescape?_control hcontrol⟩
    have hhigh := digit_ne_brace (n := c.toNat / 16) (by omega)
    have hlow := digit_ne_brace (n := c.toNat % 16) (by omega)
    simp only [List.forall_mem_cons]
    exact ⟨by decide, by decide, by decide, hhigh, hlow, List.forall_mem_nil _⟩
  · rw [if_neg hcontrol]
    exact .inr ⟨rfl, hquote, hbackslash, Nat.not_lt.1 hcontrol⟩

theorem takeString?_backslash {cs : List Char} {c : Char} {n : Nat}
    (h : unescape? cs = some (c, n)) :
    takeString? ('\\' :: cs) =
      (takeString? (cs.drop n)).map fun (taken, m) ↦ (c :: taken, n + m + 1) := by
  rw [takeString?, if_neg (by decide), if_pos rfl, h]
  simp only [Option.bind_eq_bind, Option.bind_some]
  cases takeString? (cs.drop n) <;> rfl

theorem takeString?_plain {c : Char} (hc : IsPlain c) (cs : List Char) :
    takeString? (c :: cs) = (takeString? cs).map fun (taken, m) ↦ (c :: taken, m + 1) := by
  obtain ⟨hquote, hbackslash, hcontrol⟩ := hc
  rw [takeString?, if_neg hquote, if_neg hbackslash, if_neg (Nat.not_lt.2 hcontrol)]
  cases takeString? cs <;> rfl

theorem takeString?_escape_append (c : Char) (rest : List Char) :
    takeString? (escape c ++ rest) =
      (takeString? rest).map fun (cs, n) ↦ (c :: cs, (escape c).length + n) := by
  rcases escape_cases c with ⟨e, hescape, -, -, hread⟩ | ⟨hescape, hplain⟩
  · rw [hescape, List.cons_append, takeString?_backslash (hread rest), List.drop_left,
      List.length_cons]
    refine congrArg (Option.map · _) ?_
    funext ⟨cs, n⟩
    dsimp only
    rw [Nat.add_right_comm]
  · rw [hescape, List.singleton_append, takeString?_plain hplain, List.length_singleton]
    refine congrArg (Option.map · _) ?_
    funext ⟨cs, n⟩
    dsimp only
    rw [Nat.add_comm]

theorem takeString?_flatMap_escape (cs rest : List Char) :
    takeString? (cs.flatMap escape ++ '"' :: rest) =
      some (cs, (cs.flatMap escape).length + 1) := by
  induction cs with
  | nil =>
    rw [List.flatMap_nil, List.nil_append, takeString?, if_pos rfl]
    rfl
  | cons c cs ih =>
    rw [List.flatMap_cons, List.append_assoc, takeString?_escape_append, ih, Option.map_some,
      List.length_append, Nat.add_assoc]

theorem tokens?_writeString_append (s : String) (rest : List Char) :
    tokens? (writeString s ++ rest) = (tokens? rest).map (.scalar (.string s) :: ·) := by
  have htoken : token? '"' (s.toList.flatMap escape ++ '"' :: rest) =
      some (.scalar (.string s), (s.toList.flatMap escape).length + 1) := by
    rw [token?, takeString?_flatMap_escape, Option.map_some]
    dsimp only
    rw [String.ofList_toList]
  have hdrop : (s.toList.flatMap escape ++ '"' :: rest).drop
      ((s.toList.flatMap escape).length + 1) = rest := by
    rw [← List.drop_drop, List.drop_left, List.drop_succ_cons, List.drop_zero]
  rw [writeString, List.cons_append, List.append_assoc, List.singleton_append, tokens?,
    if_neg (by decide), htoken]
  simp only [Option.bind_eq_bind, Option.bind_some]
  rw [hdrop]
  cases tokens? rest <;> rfl

/-! ## What stands outside of the quotes -/

theorem isPrefixOf_append_quote {word : List Char} (hword : '"' ∉ word) (cs rest : List Char) :
    word.isPrefixOf (cs ++ '"' :: rest) = word.isPrefixOf cs := by
  induction word generalizing cs with
  | nil => rw [List.isPrefixOf_nil_left, List.isPrefixOf_nil_left]
  | cons c word ih =>
    obtain ⟨hc, hword⟩ := not_or.1 (mt List.mem_cons.2 hword)
    cases cs with
    | nil =>
      rw [List.nil_append, List.isPrefixOf_cons_cons, beq_eq_false_iff_ne.2 (Ne.symm hc)]
      rfl
    | cons a cs =>
      rw [List.cons_append, List.isPrefixOf_cons_cons, List.isPrefixOf_cons_cons, ih hword]

theorem word?_append_quote (cs rest : List Char) : word? (cs ++ '"' :: rest) = word? cs := by
  rw [word?, word?, isPrefixOf_append_quote (by decide), isPrefixOf_append_quote (by decide),
    isPrefixOf_append_quote (by decide)]

theorem takeWhile_append_quote (cs rest : List Char) :
    (cs ++ '"' :: rest).takeWhile isNumberChar = cs.takeWhile isNumberChar := by
  induction cs with
  | nil => rfl
  | cons c cs ih => rw [List.cons_append, List.takeWhile_cons, List.takeWhile_cons, ih]

theorem token?_append_quote {c : Char} (hc : c ≠ '"') (cs rest : List Char) :
    token? c (cs ++ '"' :: rest) = token? c cs := by
  rw [token?.eq_def, token?.eq_def]
  split
  · rfl
  · rfl
  · rfl
  · rfl
  · rfl
  · rfl
  · exact absurd rfl hc
  · rw [takeWhile_append_quote, ← List.cons_append, word?_append_quote]

theorem word?_eq_some {cs : List Char} {t : Token} {n : Nat} (h : word? cs = some (t, n)) :
    t.map f = t ∧ n ≤ cs.length := by
  have hread {word : List Char} {found : Token} (hword : word.isPrefixOf cs)
      (heq : some (found, word.length) = some (t, n)) (hfound : found.map f = found) :
      t.map f = t ∧ n ≤ cs.length := by
    obtain ⟨rfl, rfl⟩ := Prod.mk.inj (Option.some.inj heq)
    exact ⟨hfound, (List.isPrefixOf_iff_prefix.1 hword).length_le⟩
  rw [word?] at h
  split at h
  · rename_i hnull
    exact hread hnull h rfl
  split at h
  · rename_i htrue
    exact hread htrue h rfl
  split at h
  · rename_i hfalse
    exact hread hfalse h rfl
  · cases h

/-- What is known of a token that does not start with a quote: it is no string, and it does not
take more than there is. -/
theorem token?_eq_some {c : Char} {cs : List Char} {t : Token} {n : Nat} (hc : c ≠ '"')
    (h : token? c cs = some (t, n)) : t.map f = t ∧ n ≤ cs.length := by
  rw [token?.eq_def] at h
  split at h
  · cases h; exact ⟨rfl, Nat.zero_le _⟩
  · cases h; exact ⟨rfl, Nat.zero_le _⟩
  · cases h; exact ⟨rfl, Nat.zero_le _⟩
  · cases h; exact ⟨rfl, Nat.zero_le _⟩
  · cases h; exact ⟨rfl, Nat.zero_le _⟩
  · cases h; exact ⟨rfl, Nat.zero_le _⟩
  · exact absurd rfl hc
  · split at h
    · obtain ⟨literal, -, h⟩ := Option.bind_eq_some_iff.1 h
      obtain ⟨number, -, h⟩ := Option.bind_eq_some_iff.1 h
      obtain ⟨rfl, rfl⟩ := Prod.mk.inj (Option.some.inj h)
      exact ⟨rfl, List.takeWhile_prefix _ |>.length_le⟩
    · obtain ⟨⟨word, m⟩, hword, heq⟩ := Option.map_eq_some_iff.1 h
      obtain ⟨rfl, rfl⟩ := Prod.mk.inj heq
      obtain ⟨hmap, hle⟩ := word?_eq_some hword
      exact ⟨hmap, Nat.sub_le_of_le_add hle⟩

theorem tokens?_cons {c : Char} (hspace : isSpace c = false) (cs : List Char) :
    tokens? (c :: cs) =
      (token? c cs).bind fun (t, n) ↦ (tokens? (cs.drop n)).map (t :: ·) := by
  rw [tokens?, if_neg (hspace ▸ Bool.false_ne_true)]
  cases token? c cs with
  | none => rfl
  | some token =>
    obtain ⟨t, n⟩ := token
    simp only [Option.bind_eq_bind, Option.bind_some]
    cases tokens? (cs.drop n) <;> rfl

theorem tokens?_space {c : Char} (hspace : isSpace c = true) (cs : List Char) :
    tokens? (c :: cs) = tokens? cs := by
  rw [tokens?, if_pos hspace]

/-- Tokens are read up to a quote, and then from the quote on. None of those before is a string. -/
theorem tokens?_append_quote {cs : List Char} (hcs : '"' ∉ cs) :
    (∀ rest, tokens? (cs ++ '"' :: rest) =
      (tokens? cs).bind fun ts ↦ (tokens? ('"' :: rest)).map (ts ++ ·)) ∧
    (tokens? cs).map (List.map (Token.map f)) = tokens? cs := by
  induction cs using tokens?.induct with
  | case1 =>
    refine ⟨fun rest ↦ ?_, by rw [tokens?]; rfl⟩
    rw [List.nil_append, tokens?, Option.bind_some]
    cases tokens? ('"' :: rest) <;> rfl
  | case2 c cs hspace ih =>
    obtain ⟨happend, hmap⟩ := ih fun hmem ↦ hcs (List.mem_cons_of_mem c hmem)
    refine ⟨fun rest ↦ ?_, ?_⟩
    · rw [List.cons_append, tokens?_space hspace, tokens?_space hspace, happend]
    · rw [tokens?_space hspace, hmap]
  | case3 c cs hspace ih =>
    obtain ⟨hc, hmem⟩ := not_or.1 (mt List.mem_cons.2 hcs)
    rw [Bool.not_eq_true] at hspace
    cases htoken : token? c cs with
    | none =>
      refine ⟨fun rest ↦ ?_, ?_⟩
      · rw [List.cons_append, tokens?_cons hspace, tokens?_cons hspace,
          token?_append_quote (Ne.symm hc), htoken]
        rfl
      · rw [tokens?_cons hspace, htoken]
        rfl
    | some token =>
      obtain ⟨t, n⟩ := token
      obtain ⟨ht, hn⟩ := token?_eq_some (f := f) (Ne.symm hc) htoken
      obtain ⟨happend, hmap⟩ := ih n fun h ↦ hmem (List.mem_of_mem_drop h)
      refine ⟨fun rest ↦ ?_, ?_⟩
      · rw [List.cons_append, tokens?_cons hspace, tokens?_cons hspace,
          token?_append_quote (Ne.symm hc), htoken, Option.bind_some, Option.bind_some]
        dsimp only
        rw [List.drop_append_of_le_length hn, happend]
        cases tokens? (cs.drop n) with
        | none => rfl
        | some ts => cases tokens? ('"' :: rest) <;> rfl
      · rw [tokens?_cons hspace, htoken, Option.bind_some]
        dsimp only
        cases htokens : tokens? (cs.drop n) with
        | none => rfl
        | some ts =>
          rw [htokens] at hmap
          have hts : ts.map (Token.map f) = ts := Option.some.inj hmap
          rw [Option.map_some, Option.map_some, List.map_cons, ht, hts]

/-! ## Parts of a text -/

/-- A part of a JSON text. -/
inductive Part
  /-- A character that stands for itself. -/
  | char (c : Char)
  /-- A quoted string. -/
  | quoted (s : String)
  deriving DecidableEq, Repr

namespace Part

/-- How a part is written. -/
def write : Part → List Char
  | char c => [c]
  | quoted s => writeString s

/-- The part with a function done to the string that it may be. -/
def map (f : String → String) : Part → Part
  | char c => char c
  | quoted s => quoted (f s)

end Part

/-- The text of some parts. -/
def written (ps : List Part) : List Char := ps.flatMap Part.write

theorem written_cons (p : Part) (ps : List Part) : written (p :: ps) = p.write ++ written ps :=
  List.flatMap_cons

theorem written_append (ps qs : List Part) : written (ps ++ qs) = written ps ++ written qs :=
  List.flatMap_append

theorem tokens?_append_quoted {cs : List Char} (hcs : '"' ∉ cs) (s : String) (ps : List Part) :
    tokens? (cs ++ written (.quoted s :: ps)) = (tokens? cs).bind fun ts ↦
      (tokens? (written ps)).map fun us ↦ ts ++ .scalar (.string s) :: us := by
  have hquoted := tokens?_writeString_append s (written ps)
  rw [writeString, List.cons_append] at hquoted
  rw [written_cons, Part.write, writeString, List.cons_append,
    (tokens?_append_quote (f := id) hcs).1]
  refine congrArg (Option.bind _) ?_
  funext ts
  rw [hquoted, Option.map_map]
  rfl

theorem tokens?_written_map {ps : List Part} (hps : .char '"' ∉ ps) (cs : List Char)
    (hcs : '"' ∉ cs) :
    tokens? (cs ++ written (ps.map (Part.map f))) =
      (tokens? (cs ++ written ps)).map (List.map (Token.map f)) := by
  induction ps generalizing cs with
  | nil =>
    rw [List.map_nil]
    change tokens? (cs ++ []) = (tokens? (cs ++ [])).map _
    rw [List.append_nil, (tokens?_append_quote hcs).2]
  | cons p ps ih =>
    obtain ⟨hp, hrest⟩ := not_or.1 (mt List.mem_cons.2 hps)
    cases p with
    | char c =>
      have hcs' : '"' ∉ cs ++ [c] := by
        intro hmem
        rcases List.mem_append.1 hmem with hmem | hmem
        · exact hcs hmem
        · exact hp (congrArg Part.char (List.mem_singleton.1 hmem))
      have happend (ps : List Part) :
          cs ++ written (.char c :: ps) = (cs ++ [c]) ++ written ps := by
        rw [written_cons, List.append_assoc, Part.write]
      rw [List.map_cons, Part.map, happend, happend]
      exact ih hrest _ hcs'
    | quoted s =>
      have ih' := ih hrest [] List.not_mem_nil
      rw [List.nil_append, List.nil_append] at ih'
      have hmap := (tokens?_append_quote (f := f) hcs).2
      rw [List.map_cons, Part.map, tokens?_append_quoted hcs, tokens?_append_quoted hcs, ih']
      cases hts : tokens? cs with
      | none => rfl
      | some ts =>
        rw [hts] at hmap
        have hts' : ts.map (Token.map f) = ts := Option.some.inj hmap
        rw [Option.bind_some, Option.bind_some, Option.map_map, Option.map_map]
        refine congrArg (Option.map · _) ?_
        funext us
        change _ = (ts ++ .scalar (.string s) :: us).map (Token.map f)
        rw [List.map_append, hts']
        rfl

/-- **Changing strings commutes with reading.** -/
theorem read?_written_map (f : String → String) {ps : List Part} (hps : .char '"' ∉ ps) :
    read? (String.ofList (written (ps.map (Part.map f)))) =
      (read? (String.ofList (written ps))).map (mapStrings f) := by
  have htokens := tokens?_written_map (f := f) hps [] List.not_mem_nil
  rw [List.nil_append, List.nil_append] at htokens
  rw [read?, read?, String.toList_ofList, String.toList_ofList, htokens]
  cases tokens? (written ps) with
  | none => rfl
  | some ts => exact value?_map [] ts

end CallCheck.Json

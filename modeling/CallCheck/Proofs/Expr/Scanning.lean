import CallCheck.Proofs.Expr.Grammar

/-!
# Scanning piece by piece

A text that ends where a token must end can be scanned by itself: whatever follows, its tokens come
first, and scanning goes on behind it. Texts with this property may be put in a row, and so may
their tokens; a whole source is such a text, with nothing behind it.
-/

namespace CallCheck.Expr

open Text

/-- More tokens after some that are already there. -/
def Tokens.behind (before : List Located) (ts : Tokens) : Tokens :=
  { ts with list := before ++ ts.list }

theorem behind_nil : Tokens.behind [] = id := rfl

theorem behind_append (as bs : List Located) :
    Tokens.behind (as ++ bs) = Tokens.behind as ∘ Tokens.behind bs := by
  funext ts
  simp only [Tokens.behind, Function.comp_apply, List.append_assoc]

/-! ## One step -/

theorem scan_nil (offset : Nat) : scan offset [] = .ok ⟨[], offset⟩ := by
  rw [scan.eq_def]

theorem scan_cons (offset : Nat) (c : Char) (rest : List Char) :
    scan offset (c :: rest) =
      if isBlank c then scan (offset + c.utf8Size) rest
      else
        match lexeme c rest with
        | .error fault => .error (fault.at offset)
        | .ok (token, n) =>
          (scan (offset + Utf8.width (c :: rest.take n)) (rest.drop n)).map
            (Tokens.behind [⟨token, offset⟩]) := by
  rw [scan.eq_def]
  rfl

theorem scan_lexeme {offset n : Nat} {c : Char} {rest : List Char} {token : Token}
    (hblank : isBlank c = false) (hlexeme : lexeme c rest = .ok (token, n)) :
    scan offset (c :: rest) =
      (scan (offset + Utf8.width (c :: rest.take n)) (rest.drop n)).map
        (Tokens.behind [⟨token, offset⟩]) := by
  rw [scan_cons, hblank, hlexeme]
  rfl

/-! ## Pieces -/

/-- A text of certain tokens, whatever follows it. -/
def Scans (cs : List Char) (us : List Token) : Prop :=
  ∀ offset rest, ∃ ts, words ts = us ∧
    scan offset (cs ++ rest) = (scan (offset + Utf8.width cs) rest).map (Tokens.behind ts)

namespace Scans

variable {cs ds : List Char} {us vs : List Token}

theorem append (hc : Scans cs us) (hd : Scans ds vs) : Scans (cs ++ ds) (us ++ vs) := by
  intro offset rest
  obtain ⟨as, rfl, has⟩ := hc offset (ds ++ rest)
  obtain ⟨bs, rfl, hbs⟩ := hd (offset + Utf8.width cs) rest
  refine ⟨as ++ bs, words_append as bs, ?_⟩
  rw [List.append_assoc, has, hbs, Utf8.width_append, behind_append, Nat.add_assoc]
  cases scan (offset + (Utf8.width cs + Utf8.width ds)) rest <;> rfl

theorem nil : Scans [] [] := by
  intro offset rest
  refine ⟨[], rfl, ?_⟩
  rw [List.nil_append, Utf8.width_nil, Nat.add_zero, behind_nil]
  cases scan offset rest <;> rfl

theorem cons {c : Char} {token : Token} (hblank : isBlank c = false)
    (hlexeme : ∀ rest, lexeme c (cs ++ (ds ++ rest)) = .ok (token, cs.length))
    (hd : Scans ds us) : Scans (c :: cs ++ ds) (token :: us) := by
  intro offset rest
  obtain ⟨bs, rfl, hbs⟩ := hd (offset + Utf8.width (c :: cs)) rest
  refine ⟨⟨token, offset⟩ :: bs, rfl, ?_⟩
  rw [List.append_assoc, List.cons_append, scan_lexeme hblank (hlexeme rest), List.take_left,
    List.drop_left, hbs, Utf8.width_append, Nat.add_assoc]
  cases scan (offset + (Utf8.width (c :: cs) + Utf8.width ds)) rest <;> rfl

theorem of_lexeme {c : Char} {token : Token} (hblank : isBlank c = false)
    (hlexeme : ∀ rest, lexeme c (cs ++ rest) = .ok (token, cs.length)) :
    Scans (c :: cs) [token] := by
  have hcons := cons hblank (fun rest ↦ hlexeme ([] ++ rest)) nil
  rwa [List.append_nil] at hcons

theorem blank {c : Char} (hblank : isBlank c = true) (hc : Scans cs us) : Scans (c :: cs) us := by
  intro offset rest
  obtain ⟨ts, rfl, hts⟩ := hc (offset + c.utf8Size) rest
  refine ⟨ts, rfl, ?_⟩
  rw [List.cons_append, scan_cons, if_pos hblank, hts, Utf8.width_cons, Nat.add_assoc]

theorem tokenize_eq_ok (h : Scans cs us) :
    ∃ ts, tokenize (String.ofList cs) = .ok ts ∧ words ts.list = us := by
  obtain ⟨ts, rfl, hts⟩ := h 0 []
  rw [List.append_nil, scan_nil] at hts
  refine ⟨⟨ts, 0 + Utf8.width cs⟩, ?_, rfl⟩
  rw [tokenize, String.toList_ofList, hts]
  simp only [Except.map, Tokens.behind, List.append_nil]

end Scans

/-! ## Some pieces -/

theorem scans_dot : Scans ['.'] [.dot] := .of_lexeme (by decide) fun _ ↦ rfl

theorem scans_assign : Scans ['='] [.assign] := .of_lexeme (by decide) fun _ ↦ rfl

theorem scans_comma : Scans [','] [.comma] := .of_lexeme (by decide) fun _ ↦ rfl

theorem scans_rightParen : Scans [')'] [.rightParen] := .of_lexeme (by decide) fun _ ↦ rfl

theorem keyword_letters {sign d : Char} {letters rest : List Char} {token : Token}
    (hletters : (letters.all fun c ↦ decide (c.toNat < 0x80) && c.isAlpha) = true)
    (hd : d.toNat < 0x80 ∧ ¬ d.isAlpha)
    (hword : keywords.lookup (String.ofList (sign :: letters)) = some token) :
    keyword sign (letters ++ d :: rest) = .ok (token, letters.length) := by
  have hall : ∀ c ∈ letters, isAlphabetic c = true := by
    intro c hc
    have hc := List.all_eq_true.1 hletters c hc
    rw [Bool.and_eq_true, decide_eq_true_iff] at hc
    rw [isAlphabetic_of_ascii hc.1]
    exact hc.2
  have hstop : isAlphabetic d ≠ true := by
    rw [isAlphabetic_of_ascii hd.1]
    exact hd.2
  have htake : (letters ++ d :: rest).takeWhile isAlphabetic = letters := by
    rw [List.takeWhile_append_of_pos hall, List.takeWhile_cons_of_neg hstop, List.append_nil]
  rw [keyword]
  simp only [htake, hword]

theorem scans_contain :
    Scans ('@' :: "contain".toList ++ ['(']) [.function .contain, .leftParen] := by
  have hparen : Scans ['('] [.leftParen] := .of_lexeme (by decide) fun _ ↦ rfl
  refine .cons (by decide) ?_ hparen
  intro rest
  rw [lexeme, if_pos (by decide)]
  · exact keyword_letters rfl (by decide) rfl
  all_goals decide

theorem scans_emptyText : Scans ['"', '"'] [.string ""] :=
  .of_lexeme (by decide) fun _ ↦ rfl

end CallCheck.Expr

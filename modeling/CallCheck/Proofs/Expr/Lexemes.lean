import CallCheck.Expr.Lexeme
import Mathlib.Data.List.TakeWhile

/-!
# What a lexeme is

Which characters spell which token, as a relation with one rule for each form of a lexeme. The rules
do not scan: they say what a lexeme looks like and what must not follow it, so that no longer run of
its characters could have been taken. `IsFault` says in the same way why no lexeme starts at a
place.

## Main statements

A text that does not start with a blank starts with a lexeme or with a fault
(`isLexeme_or_isFault`), and `lexeme` finds the one and reports the other (`IsLexeme.lexeme_eq`,
`IsFault.lexeme_eq`). Hence a text starts with one lexeme at most, and a fault leaves room for none.
-/

namespace CallCheck.Expr

open Numeric Text

/-! ## Runs -/

/-- Characters of a class with a text behind them that does not go on with another one. -/
structure IsRun (p : Char → Bool) (cs rest : List Char) : Prop where
  all : ∀ c ∈ cs, p c = true
  stops : ∀ c ∈ rest.head?, p c = false

/-- A text that goes on with a point and a digit. -/
def HasFraction (rest : List Char) : Prop := ∃ d more, rest = '.' :: d :: more ∧ isDigit d = true

namespace IsRun

variable {p : Char → Bool} {c : Char} {cs rest before after : List Char}

theorem takeWhile_eq (h : IsRun p cs rest) : (cs ++ rest).takeWhile p = cs := by
  have hstop : rest.takeWhile p = [] := by
    cases rest with
    | nil => rfl
    | cons c rest => simp [h.stops c rfl]
  rw [List.takeWhile_append_of_pos h.all, hstop, List.append_nil]

theorem dropWhile_eq (h : IsRun p cs rest) : (cs ++ rest).dropWhile p = rest := by
  have hsplit := List.takeWhile_append_dropWhile (p := p) (l := cs ++ rest)
  rw [h.takeWhile_eq] at hsplit
  exact List.append_cancel_left hsplit

theorem tail (h : IsRun p (c :: cs) rest) : IsRun p cs rest :=
  ⟨fun d hd ↦ h.all d (List.mem_cons_of_mem c hd), h.stops⟩

theorem cons (hc : p c = true) (h : IsRun p cs rest) : IsRun p (c :: cs) rest := by
  refine ⟨fun d hd ↦ ?_, h.stops⟩
  rcases List.mem_cons.1 hd with rfl | hd
  · exact hc
  · exact h.all d hd

theorem of_append (h : IsRun p cs (before ++ after)) : IsRun p cs before := by
  refine ⟨h.all, fun d hd ↦ h.stops d ?_⟩
  rw [List.head?_append, hd]
  rfl

end IsRun

theorem IsRun.of_all {p : Char → Bool} {cs rest : List Char} (hall : cs.all p = true)
    (hstop : rest.head?.any p = false) : IsRun p cs rest := by
  refine ⟨List.all_eq_true.1 hall, fun c hc ↦ ?_⟩
  rwa [Option.mem_def.1 hc, Option.any_some] at hstop

theorem exists_isRun (p : Char → Bool) (text : List Char) :
    ∃ cs rest, text = cs ++ rest ∧ IsRun p cs rest := by
  refine ⟨_, _, List.takeWhile_append_dropWhile.symm, fun _ ↦ List.mem_takeWhile_imp, ?_⟩
  intro c hc
  have hstop := List.head?_dropWhile_not p text
  rw [hc] at hstop
  exact hstop

theorem HasFraction.append {before : List Char} (h : HasFraction before) (after : List Char) :
    HasFraction (before ++ after) := by
  obtain ⟨d, more, rfl, hd⟩ := h
  exact ⟨d, more ++ after, rfl, hd⟩

/-! ## Lexemes and faults -/

/-- The characters that are tokens of their own. -/
def punctuation : List (Char × Token) :=
  [('.', .dot), ('=', .assign), (',', .comma), ('(', .leftParen), (')', .rightParen)]

/-- The characters that start a lexeme which is neither a number nor an identifier. -/
def specials : List Char := ['.', '=', ',', '(', ')', '"', '$', '@']

/-- How a text is written between quotes: a backslash before a quote or a backslash stands for that
character, and any other backslash for itself. -/
inductive Quotes : List Char → List Char → Prop
  | nil : Quotes [] []
  | plain {c : Char} {written text : List Char} :
      c ≠ '"' → c ≠ '\\' → Quotes written text → Quotes (c :: written) (c :: text)
  | escaped {c : Char} {written text : List Char} :
      c = '"' ∨ c = '\\' → Quotes written text → Quotes ('\\' :: c :: written) (c :: text)
  | kept {c : Char} {written text : List Char} :
      ¬ (c = '"' ∨ c = '\\') → Quotes written text →
      Quotes ('\\' :: c :: written) ('\\' :: c :: text)

/-- Characters that spell a token in front of a text. -/
inductive IsLexeme : List Char → Token → List Char → Prop
  /-- Punctuation. -/
  | punctuation {c : Char} {token : Token} {rest : List Char} :
      (c, token) ∈ punctuation → IsLexeme [c] token rest
  /-- A sign and all letters behind it, which the table has together. -/
  | keyword {sign : Char} {token : Token} {letters rest : List Char} :
      sign = '$' ∨ sign = '@' → IsRun isAlphabetic letters rest →
      (String.ofList (sign :: letters), token) ∈ keywords →
      IsLexeme (sign :: letters) token rest
  /-- All letters. -/
  | identifier {c : Char} {letters rest : List Char} :
      IsRun isAlphabetic (c :: letters) rest →
      IsLexeme (c :: letters) (.identifier (String.ofList (c :: letters))) rest
  /-- All digits, without a fraction behind them. -/
  | number {d : Char} {digits rest : List Char} {i : Int64} :
      IsRun isDigit (d :: digits) rest → ¬ HasFraction rest →
      i.toInt = (natOfDigits 0 (d :: digits) : Nat) → IsLexeme (d :: digits) (.number i) rest
  /-- All digits, a point, and all digits behind it, of which there are some. -/
  | real {d e : Char} {digits fraction rest : List Char} :
      IsRun isDigit (d :: digits) ('.' :: e :: (fraction ++ rest)) →
      IsRun isDigit (e :: fraction) rest →
      IsLexeme (d :: (digits ++ '.' :: e :: fraction))
        (.real (.ofDecimal false ⟨natOfDigits 0 (d :: digits ++ e :: fraction),
          -((e :: fraction).length : Int)⟩)) rest
  /-- A text between quotes. -/
  | string {written text rest : List Char} : Quotes written text →
      IsLexeme ('"' :: (written ++ ['"'])) (.string (String.ofList text)) rest

/-- Why a text that does not start with a blank does not start with a lexeme. -/
inductive IsFault : List Char → Fault → Prop
  /-- No lexeme starts with the character. -/
  | unexpected {c : Char} {rest : List Char} :
      isBlank c = false → c ∉ specials → isDigit c = false → isAlphabetic c = false →
      IsFault (c :: rest) (.unexpected c)
  /-- The sign and all letters behind it are not in the table. -/
  | unknown {sign : Char} {letters rest : List Char} :
      sign = '$' ∨ sign = '@' → IsRun isAlphabetic letters rest →
      (∀ token, (String.ofList (sign :: letters), token) ∉ keywords) →
      IsFault (sign :: (letters ++ rest)) (.unknown (String.ofList (sign :: letters)))
  /-- All digits, without a fraction behind them, write an integer that is too large. -/
  | overflow {d : Char} {digits rest : List Char} :
      IsRun isDigit (d :: digits) rest → ¬ HasFraction rest →
      maxInt < natOfDigits 0 (d :: digits) →
      IsFault (d :: (digits ++ rest)) (.overflow (String.ofList (d :: digits)))
  /-- No quote closes the text. -/
  | unterminated {rest : List Char} :
      (∀ written text after, Quotes written text → rest ≠ written ++ '"' :: after) →
      IsFault ('"' :: rest) .unterminated

/-! ## Every text starts with the one or the other -/

theorem isAlphabetic_of_isBlank {c : Char} (h : isBlank c = true) : isAlphabetic c = false := by
  have htable : ∀ n ∈ [9, 10, 11, 12, 13, 0x20, 0x85, 0xa0, 0x1680, 0x2000, 0x2001, 0x2002, 0x2003,
      0x2004, 0x2005, 0x2006, 0x2007, 0x2008, 0x2009, 0x200a, 0x2028, 0x2029, 0x202f, 0x205f,
      0x3000], isAlphabetic (Char.ofNat n) = false := by
    decide +kernel
  have hc := htable c.toNat (by simp [isBlank] at h ⊢; omega)
  rwa [Char.ofNat_toNat] at hc

theorem not_letter_of_isDigit {c : Char} (h : isDigit c = true) :
    isAlphabetic c = false ∧ isBlank c = false := by
  have htable : ∀ n ∈ List.range' 48 10,
      isAlphabetic (Char.ofNat n) = false ∧ isBlank (Char.ofNat n) = false := by
    decide +kernel
  have hrange : 48 ≤ c.toNat ∧ c.toNat ≤ 57 := by
    simpa [isDigit, Char.le_def, UInt32.le_iff_toNat_le] using h
  have hc := htable c.toNat (List.mem_range'_1.2 (by omega))
  rwa [Char.ofNat_toNat] at hc

theorem of_mem_specials {c : Char} (h : c ∈ specials) :
    isBlank c = false ∧ isDigit c = false ∧ isAlphabetic c = false := by
  have hall : (specials.all fun c ↦ !isBlank c && !isDigit c && !isAlphabetic c) = true := by
    decide +kernel
  simpa [and_assoc] using List.all_eq_true.1 hall c h

theorem mem_specials_iff {c : Char} :
    c ∈ specials ↔ (∃ token, (c, token) ∈ punctuation) ∨ c = '"' ∨ c = '$' ∨ c = '@' := by
  simp only [specials, punctuation, List.mem_cons, Prod.mk.injEq]
  grind

theorem isLexeme_or_isFault {c : Char} (rest : List Char) (hblank : isBlank c = false) :
    (∃ cs after token, rest = cs ++ after ∧ IsLexeme (c :: cs) token after) ∨
      ∃ fault, IsFault (c :: rest) fault := by
  by_cases hpunctuation : ∃ token, (c, token) ∈ punctuation
  · obtain ⟨token, hmem⟩ := hpunctuation
    exact .inl ⟨[], rest, token, rfl, .punctuation hmem⟩
  by_cases hquote : c = '"'
  · subst hquote
    by_cases hclosed : ∃ written text after, Quotes written text ∧ rest = written ++ '"' :: after
    · obtain ⟨written, text, after, hquotes, rfl⟩ := hclosed
      exact .inl ⟨written ++ ['"'], after, _, by simp, .string hquotes⟩
    · exact .inr ⟨_, .unterminated fun written text after hquotes hrest ↦
        hclosed ⟨written, text, after, hquotes, hrest⟩⟩
  by_cases hsign : c = '$' ∨ c = '@'
  · obtain ⟨letters, after, rfl, hrun⟩ := exists_isRun isAlphabetic rest
    by_cases hknown : ∃ token, (String.ofList (c :: letters), token) ∈ keywords
    · obtain ⟨token, hmem⟩ := hknown
      exact .inl ⟨letters, after, token, rfl, .keyword hsign hrun hmem⟩
    · exact .inr ⟨_, .unknown hsign hrun fun token hmem ↦ hknown ⟨token, hmem⟩⟩
  by_cases hdigit : isDigit c = true
  · obtain ⟨digits, after, rfl, hrun⟩ := exists_isRun isDigit rest
    by_cases hfraction : HasFraction after
    · obtain ⟨e, more, rfl, he⟩ := hfraction
      obtain ⟨fraction, after, rfl, hmore⟩ := exists_isRun isDigit more
      exact .inl ⟨digits ++ '.' :: e :: fraction, after, _, by simp,
        .real (hrun.cons hdigit) (hmore.cons he)⟩
    · by_cases hlarge : maxInt < natOfDigits 0 (c :: digits)
      · exact .inr ⟨_, .overflow (hrun.cons hdigit) hfraction hlarge⟩
      · have hlt : natOfDigits 0 (c :: digits) < 2 ^ 63 :=
          Nat.lt_succ_of_le (Nat.le_of_not_lt hlarge)
        exact .inl ⟨digits, after, _, rfl,
          .number (hrun.cons hdigit) hfraction (Int64.toInt_ofNat_of_lt hlt)⟩
  by_cases hletter : isAlphabetic c = true
  · obtain ⟨letters, after, rfl, hrun⟩ := exists_isRun isAlphabetic rest
    exact .inl ⟨letters, after, _, rfl, .identifier (hrun.cons hletter)⟩
  · have hspecial : c ∉ specials := by
      rw [mem_specials_iff]
      exact fun h ↦ h.elim hpunctuation fun h ↦ h.elim hquote hsign
    exact .inr ⟨_, .unexpected hblank hspecial (by simpa using hdigit) (by simpa using hletter)⟩

/-! ## What is found -/

theorem mem_keywords_iff {word : String} {token : Token} :
    keywords.lookup word = some token ↔ (word, token) ∈ keywords := by
  constructor
  · intro h
    obtain ⟨before, after, hsplit, -⟩ := List.lookup_eq_some_iff.1 h
    rw [hsplit]
    exact List.mem_append_right before List.mem_cons_self
  · have hall : ∀ entry ∈ keywords, keywords.lookup entry.1 = some entry.2 := by decide
    exact fun h ↦ hall _ h

theorem lexeme_sign {sign : Char} (rest : List Char) (h : sign = '$' ∨ sign = '@') :
    lexeme sign rest = keyword sign rest := by
  rcases h with rfl | rfl <;> simp [lexeme]

theorem lexeme_eq_ite {c : Char} (rest : List Char) (h : c ∉ specials) :
    lexeme c rest =
      if isDigit c then number c rest
      else if isAlphabetic c then
        .ok (.identifier (String.ofList (c :: rest.takeWhile isAlphabetic)),
          (rest.takeWhile isAlphabetic).length)
      else .error (.unexpected c) := by
  simp only [specials, List.mem_cons, not_or] at h
  obtain ⟨hdot, hassign, hcomma, hleft, hright, hquote, hdollar, hat, -⟩ := h
  rw [lexeme, if_neg] <;> simp [*]

/-- The digits that a text starts with spell an integer if no fraction follows. -/
theorem number_eq_integer {d : Char} {digits rest : List Char} (hrun : IsRun isDigit digits rest)
    (hfraction : ¬ HasFraction rest) :
    number d (digits ++ rest) = number.integer (d :: digits) := by
  rw [number]
  simp only [hrun.takeWhile_eq, hrun.dropWhile_eq]
  split
  · rename_i e more
    rw [if_neg fun he ↦ hfraction ⟨e, more, rfl, he⟩]
  · rfl

theorem quotedText_append {written text : List Char} (h : Quotes written text)
    (after : List Char) :
    quotedText (written ++ '"' :: after) = some (text, written.length + 1) := by
  induction h with
  | nil => rfl
  | plain hquote hbackslash _ ih =>
    rw [List.cons_append, quotedText, ih] <;> simp_all
  | escaped hc _ ih =>
    rw [List.cons_append, List.cons_append, quotedText, ih]
    simp [hc]
  | kept hc _ ih =>
    rw [List.cons_append, List.cons_append, quotedText, ih]
    simp [hc]

theorem exists_quotes_of_quotedText {rest text : List Char} {n : Nat}
    (h : quotedText rest = some (text, n)) :
    ∃ written after, Quotes written text ∧ rest = written ++ '"' :: after := by
  fun_induction quotedText rest generalizing text n with
  | case1 => cases h
  | case2 after =>
    obtain ⟨rfl, -⟩ := Prod.mk.inj (Option.some.inj h)
    exact ⟨[], after, .nil, rfl⟩
  | case3 => cases h
  | case4 c rest ih =>
    obtain ⟨⟨cs, m⟩, hrest, hmap⟩ := Option.map_eq_some_iff.1 h
    obtain ⟨rfl, -⟩ := Prod.mk.inj hmap
    obtain ⟨written, after, hquotes, rfl⟩ := ih hrest
    refine ⟨'\\' :: c :: written, after, ?_, rfl⟩
    split
    · rename_i hc
      exact .escaped hc hquotes
    · rename_i hc
      exact .kept hc hquotes
  | case5 c rest hquote hnil hbackslash ih =>
    obtain ⟨⟨cs, m⟩, hrest, hmap⟩ := Option.map_eq_some_iff.1 h
    obtain ⟨rfl, -⟩ := Prod.mk.inj hmap
    obtain ⟨written, after, hquotes, rfl⟩ := ih hrest
    refine ⟨c :: written, after, .plain hquote ?_ hquotes, rfl⟩
    intro hc
    cases written with
    | nil => exact hbackslash _ _ hc rfl
    | cons d written => exact hbackslash _ _ hc rfl

theorem not_mem_specials {c : Char} (h : isDigit c = true ∨ isAlphabetic c = true) :
    c ∉ specials := by
  intro hc
  obtain ⟨-, hdigit, hletter⟩ := of_mem_specials hc
  simp [hdigit, hletter] at h

theorem lexeme_digit {d : Char} (rest : List Char) (h : isDigit d = true) :
    lexeme d rest = number d rest := by
  rw [lexeme_eq_ite rest (not_mem_specials (.inl h)), if_pos h]

/-- **What is found is the lexeme.** -/
theorem IsLexeme.lexeme_eq {c : Char} {cs rest : List Char} {token : Token}
    (h : IsLexeme (c :: cs) token rest) : lexeme c (cs ++ rest) = .ok (token, cs.length) := by
  cases h with
  | punctuation hmem =>
    have hall : ∀ entry ∈ CallCheck.Expr.punctuation, lexeme entry.1 rest = .ok (entry.2, 0) := by
      simp [CallCheck.Expr.punctuation, lexeme]
    exact hall _ hmem
  | keyword hsign hrun hmem =>
    rw [lexeme_sign _ hsign, CallCheck.Expr.keyword]
    simp only [hrun.takeWhile_eq, mem_keywords_iff.2 hmem]
  | identifier hrun =>
    have hc := hrun.all c List.mem_cons_self
    have hdigit : isDigit c ≠ true := fun h ↦ by simp [(not_letter_of_isDigit h).1] at hc
    rw [lexeme_eq_ite _ (not_mem_specials (.inr hc)), if_neg hdigit, if_pos hc,
      hrun.tail.takeWhile_eq]
  | @number _ _ _ i hrun hfraction hvalue =>
    have hlt := i.toInt_lt
    have hle : natOfDigits 0 (c :: cs) ≤ maxInt := by
      rw [hvalue] at hlt
      exact Nat.le_of_lt_succ (by exact_mod_cast hlt)
    have hi : Int64.ofNat (natOfDigits 0 (c :: cs)) = i := by
      rw [← Int64.toInt_inj, hvalue, Int64.toInt_ofNat_of_lt (Nat.lt_succ_of_le hle)]
    rw [lexeme_digit _ (hrun.all c List.mem_cons_self), number_eq_integer hrun.tail hfraction,
      number.integer]
    simp [hle, hi]
  | @real _ e digits fraction _ hrun hmore =>
    have he := hmore.all e List.mem_cons_self
    rw [lexeme_digit _ (hrun.all c List.mem_cons_self), CallCheck.Expr.number]
    have htake := hrun.tail.takeWhile_eq
    have hdrop := hrun.tail.dropWhile_eq
    simp only [List.append_assoc, List.cons_append, htake, hdrop, he, if_true,
      hmore.tail.takeWhile_eq]
    simp [Nat.add_comm, Nat.add_left_comm]
  | string hquotes =>
    simp [lexeme, quotedText_append hquotes]

/-- **A fault is reported as what it is.** -/
theorem IsFault.lexeme_eq {c : Char} {rest : List Char} {fault : Fault}
    (h : IsFault (c :: rest) fault) : lexeme c rest = .error fault := by
  cases h with
  | unexpected _ hspecial hdigit hletter =>
    rw [lexeme_eq_ite _ hspecial, hdigit, hletter]
    rfl
  | unknown hsign hrun hnone =>
    rw [lexeme_sign _ hsign, keyword]
    simp only [hrun.takeWhile_eq]
    split
    · rename_i token hlookup
      exact absurd (mem_keywords_iff.1 hlookup) (hnone token)
    · rfl
  | overflow hrun hfraction hlarge =>
    rw [lexeme_digit _ (hrun.all c List.mem_cons_self), number_eq_integer hrun.tail hfraction,
      number.integer]
    simp [Nat.not_le_of_lt hlarge]
  | unterminated hopen =>
    have hnone : quotedText rest = none := by
      rw [Option.eq_none_iff_forall_ne_some]
      rintro ⟨text, n⟩ hsome
      obtain ⟨written, after, hquotes, hrest⟩ := exists_quotes_of_quotedText hsome
      exact hopen written text after hquotes hrest
    simp [lexeme, hnone]

/-! ## One lexeme at most -/

theorem IsLexeme.exists_cons {text rest : List Char} {token : Token}
    (h : IsLexeme text token rest) : ∃ c cs, text = c :: cs ∧ isBlank c = false := by
  have hspecial {c : Char} (hc : c ∈ specials) : isBlank c = false := (of_mem_specials hc).1
  cases h with
  | punctuation hmem => exact ⟨_, _, rfl, hspecial (mem_specials_iff.2 (.inl ⟨_, hmem⟩))⟩
  | keyword hsign => exact ⟨_, _, rfl, hspecial (mem_specials_iff.2 (.inr (.inr hsign)))⟩
  | @identifier c _ _ hrun =>
    refine ⟨_, _, rfl, Bool.eq_false_iff.2 fun hblank ↦ ?_⟩
    have hletter := hrun.all c List.mem_cons_self
    rw [isAlphabetic_of_isBlank hblank] at hletter
    exact Bool.false_ne_true hletter
  | number hrun => exact ⟨_, _, rfl, (not_letter_of_isDigit (hrun.all _ List.mem_cons_self)).2⟩
  | real hrun => exact ⟨_, _, rfl, (not_letter_of_isDigit (hrun.all _ List.mem_cons_self)).2⟩
  | string => exact ⟨_, _, rfl, by decide⟩

theorem IsFault.exists_cons {bad : List Char} {fault : Fault} (h : IsFault bad fault) :
    ∃ c rest, bad = c :: rest ∧ isBlank c = false := by
  cases h with
  | unexpected hblank => exact ⟨_, _, rfl, hblank⟩
  | unknown hsign =>
    exact ⟨_, _, rfl, (of_mem_specials (mem_specials_iff.2 (.inr (.inr hsign)))).1⟩
  | overflow hrun => exact ⟨_, _, rfl, (not_letter_of_isDigit (hrun.all _ List.mem_cons_self)).2⟩
  | unterminated => exact ⟨_, _, rfl, by decide⟩

/-- A text starts with one lexeme at most. -/
theorem IsLexeme.unique {text text' rest rest' : List Char} {token token' : Token}
    (h : IsLexeme text token rest) (h' : IsLexeme text' token' rest')
    (heq : text ++ rest = text' ++ rest') : text = text' ∧ token = token' ∧ rest = rest' := by
  obtain ⟨c, cs, rfl, -⟩ := h.exists_cons
  obtain ⟨c', cs', rfl, -⟩ := h'.exists_cons
  obtain rfl : c = c' := (List.cons.inj heq).1
  have htail : cs ++ rest = cs' ++ rest' := (List.cons.inj heq).2
  have hfound := h.lexeme_eq
  rw [htail, h'.lexeme_eq] at hfound
  obtain ⟨rfl, hlength⟩ := Prod.mk.inj (Except.ok.inj hfound)
  obtain ⟨rfl, rfl⟩ := List.append_inj htail hlength.symm
  exact ⟨rfl, rfl, rfl⟩

theorem IsFault.not_isLexeme {text after : List Char} {token : Token} {fault : Fault}
    (h : IsFault (text ++ after) fault) : ¬ IsLexeme text token after := by
  intro hlexeme
  obtain ⟨c, cs, rfl, -⟩ := hlexeme.exists_cons
  have hfault : lexeme c (cs ++ after) = .error fault := IsFault.lexeme_eq h
  rw [hlexeme.lexeme_eq] at hfault
  cases hfault

theorem IsLexeme.of_append {text before after : List Char} {token : Token}
    (h : IsLexeme text token (before ++ after)) : IsLexeme text token before := by
  cases h with
  | punctuation hmem => exact .punctuation hmem
  | keyword hsign hrun hmem => exact .keyword hsign hrun.of_append hmem
  | identifier hrun => exact .identifier hrun.of_append
  | number hrun hfraction hvalue =>
    exact .number hrun.of_append (fun h ↦ hfraction (h.append after)) hvalue
  | real hrun hmore =>
    rw [← List.append_assoc, ← List.cons_append, ← List.cons_append] at hrun
    exact .real hrun.of_append hmore.of_append
  | string hquotes => exact .string hquotes

end CallCheck.Expr

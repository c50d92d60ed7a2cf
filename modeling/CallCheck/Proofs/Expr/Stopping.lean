import CallCheck.Proofs.Expr.Parsing

/-!
# Where parsing stops

What a reader does is settled by the tokens that it takes and by the kind of the one behind them. So
a token that cannot stand where it does is noticed at once: up to it the tokens begin some
expression.

## Main statement

`ofTokens_settled`: an error of parsing is the same whatever stands behind the next token, and the
tokens before that begin an expression, however deep.

## Outline

`Begins` says that tokens begin what some rule of the grammar spells at some depth, and `Settled`
what comes of a reader. There is one lemma for each reader, all by recursion on the number of
tokens. A reader that goes on with another one behind some tokens does what the other does there
(`Settled.behind`).
-/

namespace CallCheck.Expr

variable {finish : Nat} {level limit limit' : Int} {ts before rest : List Located}
variable {us : List Token} {n : Nat} {t : Tree}

/-! ## Any depth -/

mutual

theorem SpellsExpr.mono {limit limit' level : Int} {us : List Token} {t : Tree}
    (hle : limit ≤ limit') : SpellsExpr limit level us t → SpellsExpr limit' level us t
  | .path hlevel hpath => .path (Int.le_trans hlevel hle) (hpath.mono hle)
  | .assign hlevel htarget hsource =>
    .assign (Int.le_trans hlevel hle) (htarget.mono hle) (hsource.mono hle)

theorem SpellsPath.mono {limit limit' level : Int} {us : List Token} {dots : Nat} {t : Tree}
    (hle : limit ≤ limit') : SpellsPath limit level us dots t → SpellsPath limit' level us dots t
  | .atom hatom => .atom (hatom.mono hle)
  | .dot hpath hlevel hatom => .dot (hpath.mono hle) (Int.le_trans hlevel hle) (hatom.mono hle)

theorem SpellsAtom.mono {limit limit' level : Int} {us : List Token} {t : Tree}
    (hle : limit ≤ limit') : SpellsAtom limit level us t → SpellsAtom limit' level us t
  | .leaf hleaf => .leaf hleaf
  | .call hargs => .call (hargs.mono hle)

theorem SpellsArgs.mono {limit limit' level : Int} {us : List Token} {args : List Tree}
    (hle : limit ≤ limit') : SpellsArgs limit level us args → SpellsArgs limit' level us args
  | .last harg => .last (harg.mono hle)
  | .more harg hargs => .more (harg.mono hle) (hargs.mono hle)

end

/-- Tokens that begin what is spelled at some depth. -/
def Begins {α : Type} (Spells : Int → List Token → α → Prop) (us : List Token) : Prop :=
  ∃ limit more value, Spells limit (us ++ more) value

/-- Tokens that begin an expression entered at a level. -/
def BeginsExpr (level : Int) : List Token → Prop := Begins fun limit ↦ SpellsExpr limit level

/-- Tokens that begin a path whose first atom is read at a level. -/
def BeginsPath (level : Int) : List Token → Prop :=
  Begins fun limit us (p : Nat × Tree) ↦ SpellsPath limit level us p.1 p.2

/-- Tokens that begin an atom read at a level. -/
def BeginsAtom (level : Int) : List Token → Prop := Begins fun limit ↦ SpellsAtom limit level

/-- Tokens that begin the arguments of a call read at a level. -/
def BeginsArgs (level : Int) : List Token → Prop := Begins fun limit ↦ SpellsArgs limit level

theorem beginsAtom_nil : BeginsAtom level [] :=
  ⟨0, [.string ""], .literal (.string ""), .leaf rfl⟩

theorem BeginsAtom.path (h : BeginsAtom level us) : BeginsPath level us := by
  obtain ⟨limit, more, t, hatom⟩ := h
  exact ⟨limit, more, (0, t), .atom hatom⟩

theorem BeginsAtom.dot {vs : List Token} (hpath : SpellsPath limit level us n t)
    (h : BeginsAtom (level + n + 1) vs) : BeginsPath level (us ++ .dot :: vs) := by
  obtain ⟨limit', more, right, hatom⟩ := h
  let top := max (max limit limit') (level + n + 1)
  refine ⟨top, more, (n + 1, .dot t right), ?_⟩
  rw [List.append_assoc, List.cons_append]
  exact .dot (hpath.mono (by omega)) (by omega) (hatom.mono (by omega))

theorem BeginsPath.expr (h : BeginsPath (level + 1) us) : BeginsExpr level us := by
  obtain ⟨limit, more, ⟨dots, t⟩, hpath⟩ := h
  exact ⟨max limit (level + 1), more, t, .path (by omega) (hpath.mono (by omega))⟩

theorem BeginsExpr.assign {vs : List Token} (hpath : SpellsPath limit (level + 1) us n t)
    (h : BeginsExpr (level + 1) vs) : BeginsExpr level (us ++ .assign :: vs) := by
  obtain ⟨limit', more, source, hsource⟩ := h
  let top := max (max limit limit') (level + 1)
  refine ⟨top, more, .assign t source, ?_⟩
  rw [List.append_assoc, List.cons_append]
  exact .assign (by omega) (hpath.mono (by omega)) (hsource.mono (by omega))

theorem BeginsExpr.args (h : BeginsExpr level us) : BeginsArgs level us := by
  obtain ⟨limit, more, t, hexpr⟩ := h
  exact ⟨limit, more, [t], .last hexpr⟩

theorem BeginsArgs.more {vs : List Token} (hexpr : SpellsExpr limit level us t)
    (h : BeginsArgs level vs) : BeginsArgs level (us ++ .comma :: vs) := by
  obtain ⟨limit', more, args, hargs⟩ := h
  refine ⟨max limit limit', more, t :: args, ?_⟩
  rw [List.append_assoc, List.cons_append]
  exact .more (hexpr.mono (by omega)) (hargs.mono (by omega))

theorem BeginsArgs.call (f : Function) (h : BeginsArgs level us) :
    BeginsAtom level (.function f :: .leftParen :: us) := by
  obtain ⟨limit, more, args, hargs⟩ := h
  refine ⟨limit, more ++ [.rightParen], .call f args, ?_⟩
  rw [List.cons_append, List.cons_append, ← List.append_assoc]
  exact .call hargs

theorem beginsExpr_nil (level : Int) : BeginsExpr level [] := beginsAtom_nil.path.expr

theorem beginsAtom_function (f : Function) : BeginsAtom level [.function f] := by
  obtain ⟨limit, more, t, hatom⟩ := (beginsExpr_nil level).args.call f
  exact ⟨limit, .leftParen :: more, t, hatom⟩

/-! ## What settles a reader -/

/-- The same token comes first, or none does. -/
def SameNext (rest rest' : List Located) : Prop := (words rest).head? = (words rest').head?

theorem SameNext.append (h : SameNext rest ts) (before : List Located) :
    SameNext (before ++ rest) (before ++ ts) := by
  cases before with
  | nil => exact h
  | cons t before => rfl

theorem SameNext.head? (h : SameNext rest ts) (p : Token → Prop)
    (hp : ∀ t ∈ rest.head?, p t.token) : ∀ t ∈ ts.head?, p t.token := by
  cases ts with
  | nil => nofun
  | cons t ts =>
    cases rest with
    | nil => cases h
    | cons r rest =>
      have hrt : r.token = t.token := Option.some.inj h
      intro t' ht'
      obtain rfl : t = t' := Option.some.inj ht'
      exact hrt ▸ hp r rfl

/-- Why a reader stops. -/
inductive Halt
  /-- The next token is not expected. -/
  | unexpected (expected : String)
  /-- The tokens nest too deep. -/
  | tooDeep

/-- The error of a reader that stops before some tokens. -/
def Halt.error (finish : Nat) (rest : List Located) : Halt → Error
  | .unexpected expected => CallCheck.Expr.unexpected finish expected rest
  | .tooDeep => CallCheck.Expr.tooDeep finish rest

/-- A reader, given where the source ends and its tokens. -/
abbrev Reader (α : Type) := Nat → List Located → Except Error (Reading α)

namespace Reader

variable {α : Type}

/-- The reader takes the first tokens and leaves the rest, whatever comes behind the next token. -/
def Takes (read : Reader α) (level : Int) (before rest : List Located) (value : α) : Prop :=
  ∀ finish ts, SameNext rest ts → read finish (before ++ ts) = .ok ⟨value, before.length, level⟩

/-- The reader stops before the rest, whatever comes behind the next token. -/
def Halts (read : Reader α) (before rest : List Located) (halt : Halt) : Prop :=
  ∀ finish ts, SameNext rest ts → read finish (before ++ ts) = .error (halt.error finish ts)

/-- What comes of a reader is settled by the tokens up to some place and the next one: it reads the
tokens up to there, or these begin what could be read and it stops. -/
inductive Settled (read : Reader α) (level : Int) (Begins : List Token → Prop)
    (ts : List Located) : Prop
  | takes (before rest : List Located) (value : α) :
      ts = before ++ rest → Takes read level before rest value → Settled read level Begins ts
  | halts (before rest : List Located) (halt : Halt) :
      ts = before ++ rest → Halts read before rest halt → Begins (words before) →
      Settled read level Begins ts

/-- The reader of expressions entered at a level. -/
def expr (level : Int) : Reader Tree := fun finish ts ↦ parseExpr finish level ts

/-- The reader of paths at a level. -/
def path (level : Int) : Reader Tree := fun finish ts ↦ parsePath finish level ts

/-- The reader of the dots that follow a path with a number of them, entered at a level. -/
def dots (level : Int) (dots : Nat) (path : Tree) : Reader Tree :=
  fun finish ts ↦ parseDots finish (level + dots) dots path ts

/-- The reader of atoms at a level. -/
def atom (level : Int) : Reader Tree := fun finish ts ↦ parseAtom finish level ts

/-- The reader of arguments at a level. -/
def args (level : Int) : Reader (List Tree) := fun finish ts ↦ parseArgs finish level ts

/-- **A reader that goes on with another** behind some tokens is settled if the other one is. -/
theorem Settled.behind {β : Type} {read : Reader α} {read' : Reader β} {level' : Int}
    {Begins Begins' : List Token → Prop} (h : read.Settled level' Begins rest)
    (lead : List Located) (hts : ts = lead ++ rest) (f : α → β) (shift : Int)
    (hlevel : level' - shift = level)
    (hread : ∀ finish ts, SameNext rest ts → read' finish (lead ++ ts) =
      (read finish ts).map fun r ↦ ⟨f r.value, lead.length + r.taken, r.level - shift⟩)
    (hbegins : ∀ us, Begins us → Begins' (words lead ++ us)) :
    read'.Settled level Begins' ts := by
  subst hts hlevel
  cases h with
  | takes before rest' value heq htakes =>
    refine .takes (lead ++ before) rest' (f value) (by simp [heq])
      fun finish ts hnext ↦ ?_
    rw [List.append_assoc, hread _ _ (heq ▸ hnext.append before), htakes finish ts hnext,
      List.length_append]
    rfl
  | halts before rest' halt heq hhalts hbefore =>
    refine .halts (lead ++ before) rest' halt (by simp [heq])
      (fun finish ts hnext ↦ ?_) (words_append lead before ▸ hbegins _ hbefore)
    rw [List.append_assoc, hread _ _ (heq ▸ hnext.append before), hhalts finish ts hnext]
    rfl

theorem Takes.spellsExpr (h : (expr level).Takes level before rest t) :
    SpellsExpr maxDepth level (words before) t := by
  have hspells := (parseExpr_sound (h 0 rest rfl)).spells
  rwa [List.take_left] at hspells

theorem Takes.spellsPath (h : (path level).Takes level before rest t) :
    ∃ dots, SpellsPath maxDepth level (words before) dots t := by
  have hspells := (parsePath_sound (h 0 rest rfl)).spells
  rwa [List.take_left] at hspells

theorem Takes.spellsAtom (h : (atom level).Takes level before rest t) :
    SpellsAtom maxDepth level (words before) t := by
  have hspells := (parseAtom_sound (h 0 rest rfl)).spells
  rwa [List.take_left] at hspells

end Reader

/-! ## Each reader is settled -/

theorem parseAtom_noParen {f : Function} {offset : Nat}
    (h : ∀ t ∈ ts.head?, t.token ≠ .leftParen) :
    parseAtom finish level (⟨.function f, offset⟩ :: ts) = .error (unexpected finish "`(`" ts) := by
  rw [parseAtom.eq_def]
  cases ts with
  | nil => rfl
  | cons t ts =>
    obtain ⟨token, offset⟩ := t
    cases token <;> first | rfl | exact absurd rfl (h _ rfl)

theorem parseAtom_noAtom (hleaf : ∀ t ∈ ts.head?, t.token.leaf? = none)
    (hfunction : ∀ f, ∀ t ∈ ts.head?, t.token ≠ .function f) :
    parseAtom finish level ts =
      .error (unexpected finish "a global, attribute, identifier, literal or call" ts) := by
  rw [parseAtom.eq_def]
  cases ts with
  | nil => rfl
  | cons t ts =>
    obtain ⟨token, offset⟩ := t
    cases token <;> first | rfl | exact absurd rfl (hfunction _ _ rfl) | cases hleaf _ rfl

theorem exists_cons_or_head? (token : Token) (ts : List Located) :
    (∃ offset rest, ts = ⟨token, offset⟩ :: rest) ∨ ∀ t ∈ ts.head?, t.token ≠ token := by
  cases ts with
  | nil => exact .inr nofun
  | cons t ts =>
    by_cases heq : t.token = token
    · exact .inl ⟨t.offset, ts, by rw [← heq]⟩
    · refine .inr fun t' ht' ↦ ?_
      obtain rfl : t = t' := Option.some.inj ht'
      exact heq

mutual

theorem expr_settled (level : Int) (ts : List Located) :
    (Reader.expr level).Settled level (BeginsExpr level) ts := by
  by_cases hlevel : level + 1 ≤ maxDepth
  · cases path_settled (level + 1) ts with
    | halts before rest halt heq hhalts hbegins =>
      refine .halts before rest halt heq (fun finish ts' hnext ↦ ?_) hbegins.expr
      have hpath : parsePath _ _ _ = _ := hhalts finish ts' hnext
      rw [Reader.expr, parseExpr_eq hlevel, hpath]
      rfl
    | takes before rest target heq htakes =>
      obtain ⟨dots, hspells⟩ := htakes.spellsPath
      rcases exists_cons_or_head? .assign rest with ⟨offset, more, rfl⟩ | hassign
      · have hlen : more.length < ts.length := by
          rw [heq, List.length_append, List.length_cons]
          omega
        refine (expr_settled (level + 1) more).behind (before ++ [⟨.assign, offset⟩])
          (by simp [heq]) (.assign target) 1 (by omega) (fun finish ts' _ ↦ ?_) fun us hus ↦ ?_
        · have hpath : parsePath _ _ _ = _ := htakes finish (⟨.assign, offset⟩ :: ts') rfl
          rw [Reader.expr, List.append_assoc, List.cons_append, List.nil_append,
            parseExpr_eq hlevel, hpath]
          simp [Except.bind, Reader.expr]
        · rw [words_append, List.append_assoc]
          exact hus.assign hspells
      · refine .takes before rest target heq fun finish ts' hnext ↦ ?_
        have hpath : parsePath _ _ _ = _ := htakes finish ts' hnext
        rw [Reader.expr, parseExpr_eq hlevel, hpath]
        simp only [Except.bind, List.drop_left]
        split
        · exact absurd rfl (hnext.head? (· ≠ .assign) hassign _ rfl)
        · rw [Int.add_sub_cancel]
  · refine .halts [] ts .tooDeep rfl (fun finish ts' _ ↦ ?_) (beginsExpr_nil level)
    exact parseExpr_tooDeep (by omega)
termination_by 5 * ts.length + 3

theorem path_settled (level : Int) (ts : List Located) :
    (Reader.path level).Settled level (BeginsPath level) ts := by
  cases atom_settled level ts with
  | halts before rest halt heq hhalts hbegins =>
    refine .halts before rest halt heq (fun finish ts' hnext ↦ ?_) hbegins.path
    have hatom : parseAtom _ _ _ = _ := hhalts finish ts' hnext
    rw [Reader.path, parsePath_eq, hatom]
    rfl
  | takes before rest first heq htakes =>
    have hlen : rest.length ≤ ts.length := by
      rw [heq, List.length_append]
      omega
    refine (dots_settled (.atom htakes.spellsAtom) rest).behind before heq id 0 (Int.sub_zero _)
      (fun finish ts' hnext ↦ ?_) fun _ ↦ id
    have hatom : parseAtom _ _ _ = _ := htakes finish ts' hnext
    rw [Reader.path, parsePath_eq, hatom, Reader.dots, Int.natCast_zero, Int.add_zero]
    simp only [Except.bind, List.drop_left, Int.sub_zero]
    rfl
termination_by 5 * ts.length + 2

theorem dots_settled {level : Int} {us : List Token} {n : Nat} {path : Tree}
    (hpath : SpellsPath maxDepth level us n path) (ts : List Located) :
    (Reader.dots level n path).Settled level (fun vs ↦ BeginsPath level (us ++ vs)) ts := by
  rcases exists_cons_or_head? .dot ts with ⟨offset, rest, rfl⟩ | hdot
  · by_cases hlevel : level + n + 1 ≤ maxDepth
    · cases atom_settled (level + n + 1) rest with
      | halts before rest' halt heq hhalts hbegins =>
        refine .halts (⟨.dot, offset⟩ :: before) rest' halt (by simp [heq])
          (fun finish ts' hnext ↦ ?_) (hbegins.dot hpath)
        have hatom : parseAtom _ _ _ = _ := hhalts finish ts' hnext
        rw [Reader.dots, List.cons_append, parseDots_dot hlevel, hatom]
        rfl
      | takes before rest' right heq htakes =>
        have hlen : rest'.length ≤ rest.length := by
          rw [heq, List.length_append]
          omega
        have hdots := dots_settled (.dot hpath hlevel htakes.spellsAtom) rest'
        refine hdots.behind (⟨.dot, offset⟩ :: before) (by simp [heq]) id 0 (Int.sub_zero _)
          (fun finish ts' hnext ↦ ?_) fun vs hvs ↦ ?_
        · have hatom : parseAtom _ _ _ = _ := htakes finish ts' hnext
          rw [Reader.dots, List.cons_append, parseDots_dot hlevel, hatom, Reader.dots,
            Int.natCast_succ, ← Int.add_assoc]
          simp only [Except.bind, List.drop_left, Int.sub_zero, Nat.add_comm 1]
          rfl
        · rwa [List.append_assoc] at hvs
    · refine .halts [⟨.dot, offset⟩] rest .tooDeep rfl (fun finish ts' _ ↦ ?_)
        (beginsAtom_nil.dot hpath)
      exact parseDots_tooDeep (by omega)
  · refine .takes [] ts path rfl fun finish ts' hnext ↦ ?_
    rw [Reader.dots, List.nil_append, parseDots_stop (hnext.head? (· ≠ .dot) hdot),
      Int.add_sub_cancel]
    rfl
termination_by 5 * ts.length + 1

theorem atom_settled (level : Int) (ts : List Located) :
    (Reader.atom level).Settled level (BeginsAtom level) ts := by
  have hnoAtom (hleaf : ∀ t ∈ ts.head?, t.token.leaf? = none)
      (hfunction : ∀ f, ∀ t ∈ ts.head?, t.token ≠ .function f) :
      (Reader.atom level).Settled level (BeginsAtom level) ts := by
    refine .halts [] ts (.unexpected "a global, attribute, identifier, literal or call") rfl
      (fun finish ts' hnext ↦ ?_) beginsAtom_nil
    exact parseAtom_noAtom (hnext.head? (·.leaf? = none) hleaf) fun f ↦
      hnext.head? (· ≠ .function f) (hfunction f)
  rcases ts with _ | ⟨⟨token, offset⟩, rest⟩
  · exact hnoAtom nofun nofun
  cases hleaf : token.leaf? with
  | some tree =>
    exact .takes [⟨token, offset⟩] rest tree rfl fun finish ts' _ ↦ parseAtom_leaf hleaf
  | none =>
    by_cases hfunction : ∃ f, token = .function f
    · obtain ⟨f, rfl⟩ := hfunction
      rcases exists_cons_or_head? .leftParen rest with ⟨offset', more, rfl⟩ | hparen
      · refine (args_settled level more).behind [⟨.function f, offset⟩, ⟨.leftParen, offset'⟩] rfl
          (.call f) 0 (Int.sub_zero _) (fun finish ts' _ ↦ ?_) fun us hus ↦ hus.call f
        rw [Reader.atom, List.cons_append, List.cons_append, List.nil_append, parseAtom_call]
        simp [Reader.args, Nat.add_comm 2]
      · refine .halts [⟨.function f, offset⟩] rest (.unexpected "`(`") rfl
          (fun finish ts' hnext ↦ ?_) (beginsAtom_function f)
        exact parseAtom_noParen (hnext.head? (· ≠ .leftParen) hparen)
    · refine hnoAtom (fun t ht ↦ ?_) fun f t ht heq ↦ ?_
      · obtain rfl := Option.some.inj ht
        exact hleaf
      · obtain rfl := Option.some.inj ht
        exact hfunction ⟨f, heq⟩
termination_by 5 * ts.length

theorem args_settled (level : Int) (ts : List Located) :
    (Reader.args level).Settled level (BeginsArgs level) ts := by
  cases expr_settled level ts with
  | halts before rest halt heq hhalts hbegins =>
    refine .halts before rest halt heq (fun finish ts' hnext ↦ ?_) hbegins.args
    have hexpr : parseExpr _ _ _ = _ := hhalts finish ts' hnext
    rw [Reader.args, parseArgs_eq, hexpr]
    rfl
  | takes before rest arg heq htakes =>
    rcases exists_cons_or_head? .comma rest with ⟨offset, more, rfl⟩ | hcomma
    · have hlen : more.length < ts.length := by
        rw [heq, List.length_append, List.length_cons]
        omega
      refine (args_settled level more).behind (before ++ [⟨.comma, offset⟩])
        (by simp [heq]) (arg :: ·) 0 (Int.sub_zero _) (fun finish ts' _ ↦ ?_) fun us hus ↦ ?_
      · have hexpr : parseExpr _ _ _ = _ := htakes finish (⟨.comma, offset⟩ :: ts') rfl
        rw [Reader.args, List.append_assoc, List.cons_append, List.nil_append, parseArgs_eq, hexpr]
        simp [Except.bind, Reader.args]
      · rw [words_append, List.append_assoc]
        exact hus.more htakes.spellsExpr
    · rcases exists_cons_or_head? .rightParen rest with ⟨offset, more, rfl⟩ | hparen
      · refine .takes (before ++ [⟨.rightParen, offset⟩]) more [arg] (by simp [heq])
          fun finish ts' _ ↦ ?_
        have hexpr : parseExpr _ _ _ = _ := htakes finish (⟨.rightParen, offset⟩ :: ts') rfl
        rw [Reader.args, List.append_assoc, List.cons_append, List.nil_append, parseArgs_eq, hexpr]
        simp [Except.bind]
      · refine .halts before rest (.unexpected "`,` or `)`") heq (fun finish ts' hnext ↦ ?_)
          ⟨maxDepth, [], [arg], by simpa using .last htakes.spellsExpr⟩
        have hexpr : parseExpr _ _ _ = _ := htakes finish ts' hnext
        rw [Reader.args, parseArgs_eq, hexpr]
        simp only [Except.bind, List.drop_left]
        split
        · exact absurd rfl (hnext.head? (· ≠ .comma) hcomma _ rfl)
        · exact absurd rfl (hnext.head? (· ≠ .rightParen) hparen _ rfl)
        · rfl
termination_by 5 * ts.length + 4

end

/-- **An error of parsing is settled** by the tokens before it and the next one. -/
theorem ofTokens_settled {ts : Tokens} {e : Error} (h : ofTokens ts = .error e) :
    ∃ before rest halt, ts.list = before ++ rest ∧ e = Halt.error ts.finish rest halt ∧
      BeginsExpr 0 (words before) ∧
      ∀ finish rest', SameNext rest rest' →
        ofTokens ⟨before ++ rest', finish⟩ = .error (halt.error finish rest') := by
  cases expr_settled 0 ts.list with
  | halts before rest halt heq hhalts hbegins =>
    have herror : ∀ finish rest', SameNext rest rest' →
        ofTokens ⟨before ++ rest', finish⟩ = .error (halt.error finish rest') := by
      intro finish rest' hnext
      have hexpr : parseExpr _ _ _ = _ := hhalts finish rest' hnext
      rw [ofTokens, hexpr]
    refine ⟨before, rest, halt, heq, ?_, hbegins, herror⟩
    have hthis := herror ts.finish rest rfl
    rw [← heq, h] at hthis
    exact Except.error.inj hthis
  | takes before rest t heq htakes =>
    have hread : ∀ finish rest', SameNext rest rest' →
        parseExpr finish 0 (before ++ rest') = .ok ⟨t, before.length, 0⟩ := htakes
    cases rest with
    | nil =>
      have hok : ofTokens ⟨before ++ [], ts.finish⟩ = .ok t := by
        simp only [ofTokens, hread ts.finish [] rfl, List.drop_left]
      rw [← heq, h] at hok
      cases hok
    | cons r rest =>
      -- an expression is read, but more tokens follow
      have herror : ∀ finish r' rest', SameNext (r :: rest) (r' :: rest') →
          ofTokens ⟨before ++ r' :: rest', finish⟩ =
            .error (unexpected finish "end of input" (r' :: rest')) := by
        intro finish r' rest' hnext
        simp only [ofTokens, hread finish (r' :: rest') hnext, List.drop_left]
      have hthis := herror ts.finish r rest rfl
      rw [← heq, h] at hthis
      refine ⟨before, r :: rest, .unexpected "end of input", heq, Except.error.inj hthis,
        ⟨maxDepth, [], t, by simpa using htakes.spellsExpr⟩, fun finish rest' hnext ↦ ?_⟩
      cases rest' with
      | nil => cases hnext
      | cons r' rest' => exact herror finish r' rest' hnext

end CallCheck.Expr

import CallCheck.Proofs.Expr.Parsing

/-!
# The height of parsed expressions

Parsing counts levels while it reads from left to right. A dot or an equals sign that comes later
wraps what has been read in one more expression, and no level is counted again for what is then
inside. So the deepest level bounds the height of a tree only where nothing tall stands to the left
of a dot or of an equals sign.

## Main statements

`Tree.leftReach` measures how deep the left operands of a tree reach into it. A parsed tree is
higher than the deepest level just when they reach deeper than that. The height has a bound all the
same, about half the square of the deepest level, and `Tree.tower` attains it.
-/

namespace CallCheck.Expr

namespace Tree

mutual

/-- How deep left operands reach that stand in an expression with a number of expressions above. -/
def leftReach (above : Nat) : Tree → Nat
  | .dot left right => max (above + 1 + left.height) (right.leftReach (above + 1))
  | .assign target source => max (above + 1 + target.height) (source.leftReach (above + 1))
  | .call _ args => leftReaches (above + 1) args
  | _ => 0

/-- How deep left operands reach that stand in one of some expressions. -/
def leftReaches (above : Nat) : List Tree → Nat
  | [] => 0
  | t :: rest => max (t.leftReach above) (leftReaches above rest)

end

mutual

theorem leftReach_le (above : Nat) : (t : Tree) → t.leftReach above ≤ above + t.height
  | .dot left right => by
    have hright := leftReach_le (above + 1) right
    simp only [leftReach, height]
    omega
  | .assign target source => by
    have hsource := leftReach_le (above + 1) source
    simp only [leftReach, height]
    omega
  | .call _ args => by
    have hargs := leftReaches_le (above + 1) args
    simp only [leftReach, height]
    omega
  | .global _ | .attr _ | .variable _ | .literal _ => Nat.zero_le _

theorem leftReaches_le (above : Nat) : (ts : List Tree) → leftReaches above ts ≤ above + heights ts
  | [] => Nat.zero_le _
  | t :: rest => by
    have ht := leftReach_le above t
    have hrest := leftReaches_le above rest
    simp only [leftReaches, heights]
    omega

end

theorem height_leaf {token : Token} {t : Tree} (h : token.leaf? = some t) : t.height = 1 := by
  cases token <;> cases h <;> rfl

end Tree

/-! ## Higher than the deepest level -/

mutual

/-- With no more expressions above than levels, what reaches below the limit is a left operand. -/
theorem SpellsExpr.height_le_max {limit level : Int} {us : List Token} {t : Tree} {above : Nat}
    (habove : above ≤ level) : SpellsExpr limit level us t →
      (above + t.height : Int) ≤ max limit (t.leftReach above)
  | .path hlevel hpath => hpath.height_le_max (by omega) hlevel
  | .assign _ _ hsource => by
    have hnext : ((above + 1 : Nat) : Int) ≤ level + 1 := by omega
    have hbound := hsource.height_le_max hnext
    simp only [Tree.height, Tree.leftReach]
    omega

theorem SpellsPath.height_le_max {limit level : Int} {us : List Token} {dots : Nat} {t : Tree}
    {above : Nat} (habove : above + 1 ≤ level) (hlevel : level ≤ limit) :
    SpellsPath limit level us dots t → (above + t.height : Int) ≤ max limit (t.leftReach above)
  | .atom hatom => hatom.height_le_max habove hlevel
  | @SpellsPath.dot _ _ _ _ dots _ _ _ hdots hright => by
    -- The left side counts as it stands; only the right side is read at a level of its own.
    have hnext : ((above + 1 : Nat) : Int) + 1 ≤ level + dots + 1 := by omega
    have hbound := hright.height_le_max hnext hdots
    simp only [Tree.height, Tree.leftReach]
    omega

theorem SpellsAtom.height_le_max {limit level : Int} {us : List Token} {t : Tree} {above : Nat}
    (habove : above + 1 ≤ level) (hlevel : level ≤ limit) :
    SpellsAtom limit level us t → (above + t.height : Int) ≤ max limit (t.leftReach above)
  | .leaf hleaf => by
    have hheight := Tree.height_leaf hleaf
    omega
  | .call hargs => by
    have hnext : ((above + 1 : Nat) : Int) ≤ level := by omega
    have hbound := hargs.heights_le_max hnext
    simp only [Tree.height, Tree.leftReach]
    omega

theorem SpellsArgs.heights_le_max {limit level : Int} {us : List Token} {args : List Tree}
    {above : Nat} (habove : above ≤ level) : SpellsArgs limit level us args →
      (above + Tree.heights args : Int) ≤ max limit (Tree.leftReaches above args)
  | .last harg => by
    have hbound := harg.height_le_max habove
    simp only [Tree.heights, Tree.leftReaches]
    omega
  | .more harg hargs => by
    have hbound := harg.height_le_max habove
    have hbounds := hargs.heights_le_max habove
    simp only [Tree.heights, Tree.leftReaches]
    omega

end

/-! ## Half a square -/

/-- Twice the greatest height that a number of levels leaves room for, and two. -/
def room (n : Nat) : Nat := n * (n + 3)

theorem room_succ (n : Nat) : room (n + 1) = room n + 2 * n + 4 := by
  simp only [room, Nat.add_mul, Nat.mul_add]
  omega

theorem room_mono {m n : Nat} (h : m ≤ n) : room m ≤ room n :=
  Nat.mul_le_mul h (by omega)

theorem SpellsPath.level_add_dots_le {limit level : Int} {us : List Token} {dots : Nat} {t : Tree}
    (hlevel : level ≤ limit) (h : SpellsPath limit level us dots t) : level + dots ≤ limit := by
  cases h with
  | atom => simpa using hlevel
  | dot _ hdots => omega

mutual

theorem SpellsExpr.height_le_room {limit level : Int} {us : List Token} {t : Tree} {n : Nat}
    (hn : level + n = limit) : SpellsExpr limit level us t → 2 * t.height + 2 ≤ room n
  | .path hlevel hpath => by
    obtain ⟨m, rfl⟩ : ∃ m, n = m + 1 := ⟨n - 1, by omega⟩
    have hm : level + 1 + m = limit := by omega
    have hdots := hpath.level_add_dots_le hlevel
    have hbound := hpath.height_le_room hm
    have hsucc := room_succ m
    omega
  | .assign hlevel htarget hsource => by
    obtain ⟨m, rfl⟩ : ∃ m, n = m + 1 := ⟨n - 1, by omega⟩
    have hm : level + 1 + m = limit := by omega
    have hdots := htarget.level_add_dots_le hlevel
    have hleft := htarget.height_le_room hm
    have hright := hsource.height_le_room hm
    have hsucc := room_succ m
    simp only [Tree.height]
    omega

/-- The height of a path whose first atom is read some levels above the limit: every dot adds one
to the height of its highest atom. -/
theorem SpellsPath.height_le_room {limit level : Int} {us : List Token} {dots : Nat} {t : Tree}
    {n : Nat} (hn : level + n = limit) :
    SpellsPath limit level us dots t → 2 * t.height ≤ 2 * dots + max 2 (room n)
  | .atom hatom => by
    have hbound := hatom.height_le_room hn
    omega
  | @SpellsPath.dot _ _ _ _ dots _ _ hleft hdots hright => by
    -- The right side has less room by all dots before it, but here that is not needed.
    have hm : level + dots + 1 + (n - (dots + 1) : Nat) = limit := by omega
    have hpath := hleft.height_le_room hn
    have hatom := hright.height_le_room hm
    have hmono := room_mono (Nat.sub_le n (dots + 1))
    simp only [Tree.height]
    omega

theorem SpellsAtom.height_le_room {limit level : Int} {us : List Token} {t : Tree} {n : Nat}
    (hn : level + n = limit) : SpellsAtom limit level us t → 2 * t.height ≤ max 2 (room n)
  | .leaf hleaf => by
    have hheight := Tree.height_leaf hleaf
    omega
  | .call hargs => by
    have hbound := hargs.heights_le_room hn
    simp only [Tree.height]
    omega

theorem SpellsArgs.heights_le_room {limit level : Int} {us : List Token} {args : List Tree}
    {n : Nat} (hn : level + n = limit) :
    SpellsArgs limit level us args → 2 * Tree.heights args + 2 ≤ room n
  | .last harg => by
    have hbound := harg.height_le_room hn
    simp only [Tree.heights]
    omega
  | .more harg hargs => by
    have hbound := harg.height_le_room hn
    have hbounds := hargs.heights_le_room hn
    simp only [Tree.heights]
    omega

end

/-! ## Tall sources -/

/-- The expression of an empty text. -/
def Tree.empty : Tree := .literal (.string "")

/-- An expression with a number of dots behind it. -/
def Tree.dotted (t : Tree) : Nat → Tree
  | 0 => t
  | k + 1 => .dot (t.dotted k) .empty

/-- A number of dots, each with an empty text behind it. -/
def dotsSource : Nat → List Char
  | 0 => []
  | k + 1 => dotsSource k ++ ['.', '"', '"']

/-- An expression to which an empty text is assigned, behind a number of dots. -/
def Tree.assigned (t : Tree) (k : Nat) : Tree := .assign (t.dotted k) .empty

/-- What turns the source of an atom into the source of such an assignment. -/
def assignedSource (k : Nat) : List Char := dotsSource k ++ ['=', '"', '"']

/-- Calls in one another, each of them the first atom of a path as long as its level allows. -/
def Tree.tower : Nat → Tree
  | 0 => .empty
  | n + 1 => (Tree.call .contain [tower n]).assigned (n + 1)

/-- The source of such calls. -/
def towerSource : Nat → List Char
  | 0 => ['"', '"']
  | n + 1 => '@' :: "contain".toList ++ ['('] ++ towerSource n ++ [')'] ++ assignedSource (n + 1)

theorem Tree.height_empty : Tree.empty.height = 1 := rfl

theorem Tree.height_dotted {t : Tree} (ht : 1 ≤ t.height) (k : Nat) :
    (t.dotted k).height = t.height + k := by
  induction k with
  | zero => rfl
  | succ k ih =>
    rw [Tree.dotted, Tree.height, ih, Tree.height_empty]
    omega

theorem Tree.height_assigned {t : Tree} (ht : 1 ≤ t.height) (k : Nat) :
    (t.assigned k).height = t.height + k + 1 := by
  rw [Tree.assigned, Tree.height, height_dotted ht, Tree.height_empty]
  omega

theorem Tree.height_tower (n : Nat) : 2 * (tower n).height + 2 = room (n + 1) := by
  induction n with
  | zero => rfl
  | succ n ih =>
    have hcall : (Tree.call .contain [tower n]).height = (tower n).height + 1 := by
      simp only [Tree.height, Tree.heights]
      omega
    have hsucc := room_succ (n + 1)
    rw [tower, Tree.height_assigned (by omega), hcall]
    omega

theorem spells_empty {limit level : Int} : SpellsAtom limit level [.string ""] .empty :=
  .leaf rfl

theorem dotsSource_spells (k : Nat) :
    ∃ us, Scans (dotsSource k) us ∧ ∀ (limit level : Int) ts t, level + k ≤ limit →
      SpellsAtom limit level ts t → SpellsPath limit level (ts ++ us) k (t.dotted k) := by
  induction k with
  | zero =>
    refine ⟨[], .nil, fun limit level ts t _ ht ↦ ?_⟩
    rw [List.append_nil]
    exact .atom ht
  | succ k ih =>
    obtain ⟨us, hscans, hspells⟩ := ih
    have hscans' := hscans.append (scans_dot.append scans_emptyText)
    refine ⟨us ++ [Token.dot, Token.string ""], hscans', ?_⟩
    intro limit level ts t hlevel ht
    rw [← List.append_assoc]
    exact .dot (hspells limit level ts t (by omega) ht) (by omega) spells_empty

theorem assignedSource_spells (k : Nat) :
    ∃ us, Scans (assignedSource k) us ∧ ∀ (limit level : Int) ts t, level + 1 + k ≤ limit →
      level + 2 ≤ limit → SpellsAtom limit (level + 1) ts t →
      SpellsExpr limit level (ts ++ us) (t.assigned k) := by
  obtain ⟨us, hscans, hspells⟩ := dotsSource_spells k
  have hscans' := hscans.append (scans_assign.append scans_emptyText)
  refine ⟨us ++ [Token.assign, Token.string ""], hscans', ?_⟩
  intro limit level ts t hdots hlevel ht
  rw [← List.append_assoc]
  exact .assign (by omega) (hspells limit (level + 1) ts t hdots ht)
    (.path (by omega) (.atom spells_empty))

theorem towerSource_spells (n : Nat) :
    ∃ us, Scans (towerSource n) us ∧ ∀ limit level : Int, level + n + 1 ≤ limit →
      SpellsExpr limit level us (.tower n) := by
  induction n with
  | zero =>
    exact ⟨_, scans_emptyText, fun limit level h ↦ .path (by omega) (.atom spells_empty)⟩
  | succ n ih =>
    obtain ⟨us, hscans, hspells⟩ := ih
    obtain ⟨vs, hassigned, hassign⟩ := assignedSource_spells (n + 1)
    refine ⟨_, ((scans_contain.append hscans).append scans_rightParen).append hassigned, ?_⟩
    intro limit level hlevel
    refine hassign limit level _ _ (by omega) (by omega) ?_
    have harg := hspells limit (level + 1) (by omega)
    rw [List.append_assoc]
    exact .call (.last harg)

/-! ## Parsed expressions -/

theorem spells_of_parse {source : String} {t : Tree} (h : parse source = .ok t) :
    ∃ us, SpellsExpr maxDepth 0 us t := by
  rw [parse] at h
  split at h
  · cases h
  · exact ⟨_, ofTokens_eq_ok_iff.1 h⟩

/-- **How high parsed expressions are.** A parsed expression is higher than the deepest level just
when its left operands reach deeper than that, and its height is always within the room that the
deepest level leaves. -/
theorem parse_height {source : String} {t : Tree} (h : parse source = .ok t) :
    (t.height ≤ maxDepth ↔ t.leftReach 0 ≤ maxDepth) ∧
      2 * t.height + 2 ≤ maxDepth * (maxDepth + 3) := by
  obtain ⟨us, hspells⟩ := spells_of_parse h
  have hreach := t.leftReach_le 0
  have hheight := hspells.height_le_max (Int.le_refl ((0 : Nat) : Int))
  refine ⟨⟨fun hle ↦ by omega, fun hle ↦ by omega⟩, ?_⟩
  exact hspells.height_le_room (Int.zero_add (maxDepth : Int))

/-- The room is filled by a tower that starts at the deepest level. -/
theorem parse_height_tower :
    parse (String.ofList (towerSource 63)) = .ok (.tower 63) ∧
      maxDepth < (Tree.tower 63).leftReach 0 ∧
      2 * (Tree.tower 63).height + 2 = maxDepth * (maxDepth + 3) := by
  obtain ⟨us, hscans, hspells⟩ := towerSource_spells 63
  have hparse := parse_of_spells hscans (hspells maxDepth 0 (by decide))
  have hheight : 2 * (Tree.tower 63).height + 2 = maxDepth * (maxDepth + 3) :=
    Tree.height_tower 63
  refine ⟨hparse, ?_, hheight⟩
  have hiff := (parse_height hparse).1
  rw [maxDepth] at hheight hiff ⊢
  omega

/-- With as many dots as there are levels before it, an equals sign is one level too many. -/
theorem parse_higher_than_maxDepth :
    ∃ t, parse (String.ofList (['"', '"'] ++ assignedSource 63)) = .ok t ∧
      ¬ t.height ≤ maxDepth := by
  obtain ⟨us, hscans, hspells⟩ := assignedSource_spells 63
  have hspells' := hspells maxDepth 0 _ _ (by decide) (by decide) spells_empty
  refine ⟨_, parse_of_spells (scans_emptyText.append hscans) hspells', ?_⟩
  rw [Tree.height_assigned (by decide)]
  decide

end CallCheck.Expr

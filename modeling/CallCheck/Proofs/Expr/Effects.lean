import CallCheck.Expr.Eval

/-!
# The effects of an evaluation

An evaluation changes its context by writing to the environment, and by nothing else.

## Visits and writes

An evaluation consists of evaluations of parts of the expression. `Tree.visits` lists them in the
order in which they end; which of them take place depends on what the earlier ones gave. The
assignments among them that succeeded are the writes of the evaluation.

## Main statement

An evaluation leaves its context as its writes do, one after the other, and these are the first of
the assignments that stand in the expression: all of them if the evaluation succeeds, and otherwise
those that were done when the first error came up. The invariant that carries the induction is
`Effects`. It speaks of the evaluations up to some point, so that those of the parts can be put
together before the whole has a result.
-/

namespace CallCheck.Expr

namespace Tree

mutual

/-- The assignments that stand in an expression, each of them after those in its parts. -/
def assignments : Tree → List Tree
  | .dot left right => left.assignments ++ right.assignments
  | .assign target source => target.assignments ++ source.assignments ++ [.assign target source]
  | .call _ args => allAssignments args
  | _ => []

/-- The assignments that stand in some expressions. -/
def allAssignments : List Tree → List Tree
  | [] => []
  | t :: rest => t.assignments ++ allAssignments rest

end

/-- The evaluations that the evaluation of an expression consists of, in the order in which they
end: those of its parts, as far as they take place, and its own. -/
def visits : Tree → Context → List (Tree × Context)
  | .dot left right, c => left.visits c ++ [(.dot left right, c)]
  | .assign (.dot left right) source, c =>
    let behind :=
      match left.eval c with
      | (.error _, _) => []
      | (.ok receiver, c) =>
        match assignKey receiver right with
        | .error _ => []
        | .ok _ => source.visits c
    left.visits c ++ behind ++ [(.assign (.dot left right) source, c)]
  | .call .contain [haystack, needle], c =>
    let behind :=
      match haystack.eval c with
      | (.error _, _) => []
      | (.ok _, c) => needle.visits c
    haystack.visits c ++ behind ++ [(.call .contain [haystack, needle], c)]
  | t, c => [(t, c)]

end Tree

/-- An assignment that has succeeded. -/
structure Write where
  /-- The context in which the assignment was evaluated. -/
  start : Context
  /-- The left side of the last dot of its target. -/
  receiver : Tree
  /-- The right side of the last dot of its target, the key under which the value is stored. -/
  key : String
  /-- The right side of the assignment. -/
  source : Tree
  /-- The value of the assignment. -/
  value : Value

namespace Write

/-- The assignment. -/
def node (w : Write) : Tree := .assign (.dot w.receiver (.variable w.key)) w.source

/-- The context with the value stored. -/
def apply (c : Context) (w : Write) : Context := c.set w.key w.value

/-- The context with all values stored, the first one first. -/
def applyAll (ws : List Write) (c : Context) : Context := ws.foldl apply c

/-- The write of an evaluation that is an assignment and succeeds. -/
def of? : Tree × Context → Option Write
  | (.assign (.dot receiver (.variable key)) source, start) =>
    match ((Tree.assign (.dot receiver (.variable key)) source).eval start).1 with
    | .ok value => some ⟨start, receiver, key, source, value⟩
    | .error _ => none
  | _ => none

/-- The value is stored in a context: the one that the right side has left when it gave this value,
evaluated behind the receiver. The assignment gives the same value, and leaves the context with the
value stored. -/
def IsStored (c : Context) (w : Write) : Prop :=
  ∃ receiver c', w.receiver.eval w.start = (.ok receiver, c') ∧
    w.source.eval c' = (.ok w.value, c) ∧ w.node.eval w.start = (.ok w.value, w.apply c)

/-- Values are stored one after the other, from a context on. -/
def AreStored : Context → List Write → Prop
  | _, [] => True
  | c, w :: ws => w.IsStored c ∧ AreStored (w.apply c) ws

end Write

/-- The assignments that succeed in an evaluation, in the order in which they end. -/
def Tree.writes (t : Tree) (c : Context) : List Write := (t.visits c).filterMap Write.of?

/-- An evaluation passes an error on to another, which ends later. -/
def PassesError (a b : Tree × Context) : Prop :=
  ∀ e, (a.1.eval a.2).1 = .error e → (b.1.eval b.2).1 = .error e

/-- What evaluations do that make up an evaluation, or a first part of one, in a context: the
assignments to be done are `nodes`, and the evaluations end with a result and a context. -/
structure Effects (c : Context) (visits : List (Tree × Context)) (nodes : List Tree)
    (result : Except Error Value × Context) : Prop where
  /-- The context has the values of the assignments stored. -/
  context_eq : result.2 = Write.applyAll (visits.filterMap Write.of?) c
  /-- The assignments are done in order. -/
  inOrder : (visits.filterMap Write.of?).map Write.node <+: nodes
  /-- With a value, all assignments have been done. -/
  complete : ∀ v, result.1 = .ok v → (visits.filterMap Write.of?).map Write.node = nodes
  /-- Every assignment has been done where those before it had led. -/
  stored : Write.AreStored c (visits.filterMap Write.of?)
  /-- The first error stays. -/
  errors : visits.Pairwise PassesError
  /-- The first error is the result. -/
  error_eq : ∀ a ∈ visits, ∀ e, (a.1.eval a.2).1 = .error e → result.1 = .error e

namespace Write

theorem applyAll_append (ws vs : List Write) (c : Context) :
    applyAll (ws ++ vs) c = applyAll vs (applyAll ws c) :=
  List.foldl_append

theorem sides_applyAll (ws : List Write) (c : Context) : (applyAll ws c).sides = c.sides := by
  induction ws generalizing c with
  | nil => rfl
  | cons w ws ih =>
    have hws := ih (w.apply c)
    rwa [apply, Context.sides_set] at hws

theorem areStored_append {ws vs : List Write} {c : Context} :
    AreStored c (ws ++ vs) ↔ AreStored c ws ∧ AreStored (applyAll ws c) vs := by
  induction ws generalizing c with
  | nil => exact (true_and _).symm ▸ Iff.rfl
  | cons w ws ih =>
    rw [List.cons_append, AreStored, AreStored, ih, and_assoc]
    rfl

theorem of?_eq_none {t : Tree} {c : Context} {e : Error} (h : (t.eval c).1 = .error e) :
    of? (t, c) = none := by
  unfold of?
  split
  · rename_i heq
    obtain ⟨rfl, rfl⟩ := Prod.mk.inj heq
    rw [h]
  · rfl

end Write

namespace Effects

variable {c c' : Context} {vs vs' : List (Tree × Context)} {nodes nodes' : List Tree}
  {r : Except Error Value × Context} {v : Value}

theorem nil : Effects c [] [] (.ok v, c) where
  context_eq := rfl
  inOrder := List.prefix_refl []
  complete _ _ := rfl
  stored := trivial
  errors := List.Pairwise.nil
  error_eq _ ha := absurd ha List.not_mem_nil

theorem append (h : Effects c vs nodes (.ok v, c')) (h' : Effects c' vs' nodes' r) :
    Effects c (vs ++ vs') (nodes ++ nodes') r := by
  have hnodes := h.complete v rfl
  have hc' : c' = Write.applyAll (vs.filterMap Write.of?) c := h.context_eq
  -- An error of the first ones would be their result, and they have a value.
  have hok : ∀ a ∈ vs, ∀ e, (a.1.eval a.2).1 ≠ .error e := by
    intro a ha e he
    cases h.error_eq a ha e he
  constructor
  · rw [List.filterMap_append, Write.applyAll_append, ← hc']
    exact h'.context_eq
  · rw [List.filterMap_append, List.map_append, hnodes]
    exact (List.prefix_append_right_inj nodes).2 h'.inOrder
  · intro w hw
    rw [List.filterMap_append, List.map_append, hnodes, h'.complete w hw]
  · rw [List.filterMap_append, Write.areStored_append, ← hc']
    exact ⟨h.stored, h'.stored⟩
  · refine List.pairwise_append.2 ⟨h.errors, h'.errors, ?_⟩
    intro a ha b _ e he
    exact absurd he (hok a ha e)
  · intro a ha e he
    rcases List.mem_append.1 ha with ha | ha
    · exact absurd he (hok a ha e)
    · exact h'.error_eq a ha e he

theorem writes_of_error {earlier later : List (Tree × Context)} {a : Tree × Context} {e : Error}
    (h : Effects c (earlier ++ a :: later) nodes r) (he : (a.1.eval a.2).1 = .error e) :
    r.1 = .error e ∧
      (earlier ++ a :: later).filterMap Write.of? = earlier.filterMap Write.of? := by
  refine ⟨h.error_eq a (List.mem_append_right _ List.mem_cons_self) e he, ?_⟩
  obtain ⟨hpasses, -⟩ := List.pairwise_cons.1 (List.pairwise_append.1 h.errors).2.1
  have hnone : (a :: later).filterMap Write.of? = [] := by
    rw [List.filterMap_eq_nil_iff]
    refine List.forall_mem_cons.2 ⟨Write.of?_eq_none he, ?_⟩
    intro b hb
    exact Write.of?_eq_none (hpasses b hb e he)
  rw [List.filterMap_append, hnone, List.append_nil]

theorem fail {e : Error} (h : Effects c vs nodes r) (he : ∀ e', r.1 = .error e' → e' = e)
    (more : List Tree) : Effects c vs (nodes ++ more) (.error e, r.2) where
  context_eq := h.context_eq
  inOrder := h.inOrder.trans (List.prefix_append nodes more)
  complete _ hv := nomatch hv
  stored := h.stored
  errors := h.errors
  error_eq a ha e' he' := congrArg Except.error (he e' (h.error_eq a ha e' he')).symm

theorem compute (h : Effects c vs nodes (.ok v, c')) (v' : Value) :
    Effects c vs nodes (.ok v', c') where
  context_eq := h.context_eq
  inOrder := h.inOrder
  complete _ _ := h.complete v rfl
  stored := h.stored
  errors := h.errors
  error_eq a ha e he := nomatch h.error_eq a ha e he

theorem errors_concat {t : Tree} (h : Effects c vs nodes r) (ht : (t.eval c).1 = r.1) :
    (vs ++ [(t, c)]).Pairwise PassesError ∧
      ∀ a ∈ vs ++ [(t, c)], ∀ e, (a.1.eval a.2).1 = .error e → r.1 = .error e := by
  constructor
  · refine List.pairwise_append.2 ⟨h.errors, List.pairwise_singleton _ _, ?_⟩
    intro a ha b hb e he
    obtain rfl := List.mem_singleton.1 hb
    rw [ht]
    exact h.error_eq a ha e he
  · intro a ha e he
    rcases List.mem_append.1 ha with ha | ha
    · exact h.error_eq a ha e he
    · obtain rfl := List.mem_singleton.1 ha
      rwa [← ht]

theorem close {t : Tree} (h : Effects c vs nodes r) (ht : t.eval c = r)
    (hof : Write.of? (t, c) = none) : Effects c (vs ++ [(t, c)]) nodes r := by
  have hwrites : (vs ++ [(t, c)]).filterMap Write.of? = vs.filterMap Write.of? := by
    rw [List.filterMap_append, List.filterMap_cons_none hof, List.filterMap_nil, List.append_nil]
  obtain ⟨herrors, herror⟩ := h.errors_concat (congrArg Prod.fst ht)
  refine ⟨?_, ?_, ?_, ?_, herrors, herror⟩ <;> rw [hwrites]
  · exact h.context_eq
  · exact h.inOrder
  · exact h.complete
  · exact h.stored

theorem abort {t : Tree} {e : Error} (h : Effects c vs nodes r)
    (he : ∀ e', r.1 = .error e' → e' = e) (ht : t.eval c = (.error e, r.2)) (more : List Tree) :
    Effects c (vs ++ [(t, c)]) (nodes ++ more) (t.eval c) := by
  rw [ht]
  exact (h.fail he more).close ht (Write.of?_eq_none (congrArg Prod.fst ht))

theorem store {w : Write} (h : Effects w.start vs nodes (.ok w.value, c')) (hw : w.IsStored c') :
    Effects w.start (vs ++ [(w.node, w.start)]) (nodes ++ [w.node]) (.ok w.value, w.apply c') := by
  obtain ⟨-, -, -, -, hnode⟩ := id hw
  have hof : Write.of? (w.node, w.start) = some w := by
    have hvalue := congrArg Prod.fst hnode
    rw [Write.node] at hvalue ⊢
    rw [Write.of?, hvalue]
  have hwrites : (vs ++ [(w.node, w.start)]).filterMap Write.of? =
      vs.filterMap Write.of? ++ [w] := by
    rw [List.filterMap_append, List.filterMap_cons_some hof, List.filterMap_nil]
  have hc' : c' = Write.applyAll (vs.filterMap Write.of?) w.start := h.context_eq
  have hnodes : ((vs.filterMap Write.of? ++ [w]).map Write.node) = nodes ++ [w.node] := by
    rw [List.map_append, h.complete w.value rfl]
    rfl
  have hresult : (w.node.eval w.start).1 = .ok w.value := congrArg Prod.fst hnode
  obtain ⟨herrors, herror⟩ := h.errors_concat hresult
  refine ⟨?_, ?_, ?_, ?_, herrors, herror⟩ <;> rw [hwrites]
  · rw [Write.applyAll_append, ← hc']
    rfl
  · exact hnodes ▸ List.prefix_refl _
  · exact fun _ _ ↦ hnodes
  · rw [Write.areStored_append, ← hc']
    exact ⟨h.stored, hw, trivial⟩

end Effects

/-! ## Each kind of expression -/

namespace Tree

variable {c : Context}

theorem assignments_of_name {t : Tree} {name : Name} (h : Name.of t = .ok name) :
    t.assignments = [] := by
  cases t with
  | dot | assign | call | global => cases h
  | _ => rfl

/-- An evaluation of a kind of expression that has no parts, or fails before it comes to them. -/
theorem effects_of_still {t : Tree} (hvisits : t.visits c = [(t, c)]) (heval : (t.eval c).2 = c)
    (hof : Write.of? (t, c) = none) (hok : ∀ v, (t.eval c).1 = .ok v → t.assignments = []) :
    Effects c (t.visits c) t.assignments (t.eval c) := by
  rw [hvisits, ← List.nil_append [(t, c)]]
  refine Effects.close ?_ rfl hof
  rcases hr : t.eval c with ⟨r, c'⟩
  rw [hr] at heval hok
  obtain rfl : c' = c := heval
  cases r with
  | ok v =>
    rw [hok v rfl]
    exact .nil
  | error e =>
    have hnil : Effects c' [] [] (.ok .null, c') := .nil
    exact hnil.fail (fun _ he ↦ nomatch he) t.assignments

theorem effects_dot {left right : Tree}
    (h : Effects c (left.visits c) left.assignments (left.eval c)) :
    Effects c ((left.dot right).visits c) (left.dot right).assignments
      ((left.dot right).eval c) := by
  rw [visits, assignments]
  refine Effects.close ?_ rfl rfl
  rw [eval]
  rcases hleft : left.eval c with ⟨r, c'⟩
  rw [hleft] at h
  cases r with
  | error e => exact h.fail (fun _ he ↦ (Except.error.inj he).symm) right.assignments
  | ok receiver =>
    cases hname : Name.of right with
    | error e => exact h.fail (fun _ he ↦ nomatch he) right.assignments
    | ok name =>
      rw [assignments_of_name hname]
      change Effects c _ _ (c'.get receiver name, c')
      cases c'.get receiver name with
      | error e => exact h.fail (fun _ he ↦ nomatch he) []
      | ok v =>
        rw [List.append_nil]
        exact h.compute v

/-- A key that an assignment can write is the name behind its last dot. -/
theorem eq_variable_of_assignKey {receiver : Value} {right : Tree} {key : String}
    (h : assignKey receiver right = .ok key) : right = .variable key := by
  rw [assignKey] at h
  split at h
  · split at h
    · cases h
    · rename_i hname
      obtain rfl := Except.ok.inj h
      cases right with
      | attr | dot | assign | call | global => cases hname
      | literal l => cases l <;> cases hname
      | _ => cases hname; rfl
    · cases h
  · cases h

/-- An assignment that succeeds has a key, and a value that is not a handle. -/
theorem exists_of_eval_assign {target source : Tree} {value : Value}
    (h : ((Tree.assign target source).eval c).1 = .ok value) :
    ∃ left key receiver c₁ c₂, target = .dot left (.variable key) ∧
      left.eval c = (.ok receiver, c₁) ∧ source.eval c₁ = (.ok value, c₂) ∧
      value.isHandle = false := by
  cases target with
  | dot left right =>
    rw [eval] at h
    split at h
    · cases h
    · rename_i receiver c₁ hleft
      split at h
      · cases h
      · rename_i key hkey
        obtain rfl := eq_variable_of_assignKey hkey
        split at h
        · cases h
        · rename_i v c₂ hsource
          split at h
          · cases h
          · rename_i hhandle
            obtain rfl := Except.ok.inj h
            exact ⟨left, key, receiver, c₁, c₂, rfl, hleft, hsource, Bool.eq_false_iff.2 hhandle⟩
  | _ => cases h

theorem effects_assign {left right source : Tree}
    (hleft : Effects c (left.visits c) left.assignments (left.eval c))
    (hsource : ∀ c', Effects c' (source.visits c') source.assignments (source.eval c')) :
    Effects c ((Tree.assign (left.dot right) source).visits c)
      (Tree.assign (left.dot right) source).assignments
      ((Tree.assign (left.dot right) source).eval c) := by
  rcases hl : left.eval c with ⟨r, c₁⟩
  rw [hl] at hleft
  have hnodes : (Tree.assign (left.dot right) source).assignments =
      left.assignments ++
        (right.assignments ++ (source.assignments ++ [.assign (left.dot right) source])) := by
    rw [assignments, assignments]
    simp only [List.append_assoc]
  rw [visits, hl, hnodes]
  cases r with
  | error e =>
    have heval : (Tree.assign (left.dot right) source).eval c = (.error e, c₁) := by
      rw [eval, hl]
    rw [List.append_nil]
    exact hleft.abort (fun _ he ↦ (Except.error.inj he).symm) heval _
  | ok receiver =>
    cases hkey : assignKey receiver right with
    | error e =>
      have heval : (Tree.assign (left.dot right) source).eval c = (.error e, c₁) := by
        rw [eval, hl]
        simp only [hkey]
      simp only [hkey, List.append_nil]
      exact hleft.abort (fun _ he ↦ nomatch he) heval _
    | ok key =>
      -- The key is a plain name, so that nothing is assigned between the receiver and the source.
      obtain rfl := eq_variable_of_assignKey hkey
      have hboth := hleft.append (hsource c₁)
      rcases hs : source.eval c₁ with ⟨r, c₂⟩
      rw [hs] at hboth
      have hright : (Tree.variable key).assignments = [] := rfl
      simp only [hkey]
      rw [hright, List.nil_append, ← List.append_assoc]
      cases r with
      | error e =>
        have heval : (Tree.assign (left.dot (.variable key)) source).eval c = (.error e, c₂) := by
          rw [eval, hl]
          simp only [hkey, hs]
        exact hboth.abort (fun _ he ↦ (Except.error.inj he).symm) heval _
      | ok value =>
        by_cases hhandle : value.isHandle
        · have heval : (Tree.assign (left.dot (.variable key)) source).eval c =
              (.error (.notStorable value.typeName), c₂) := by
            rw [eval, hl]
            simp only [hkey, hs, if_pos hhandle]
          exact hboth.abort (fun _ he ↦ nomatch he) heval _
        · have heval : (Tree.assign (left.dot (.variable key)) source).eval c =
              (.ok value, c₂.set key value) := by
            rw [eval, hl]
            simp only [hkey, hs, if_neg hhandle]
          have hstored : Write.IsStored c₂ ⟨c, left, key, source, value⟩ :=
            ⟨receiver, c₁, hl, hs, heval⟩
          rw [heval]
          exact hboth.store hstored

theorem effects_contain {haystack needle : Tree}
    (hhaystack : Effects c (haystack.visits c) haystack.assignments (haystack.eval c))
    (hneedle : ∀ c', Effects c' (needle.visits c') needle.assignments (needle.eval c')) :
    Effects c ((Tree.call .contain [haystack, needle]).visits c)
      (Tree.call .contain [haystack, needle]).assignments
      ((Tree.call .contain [haystack, needle]).eval c) := by
  rw [visits, assignments, allAssignments, allAssignments, allAssignments, List.append_nil]
  refine Effects.close ?_ rfl rfl
  rw [eval]
  rcases hr : haystack.eval c with ⟨r, c'⟩
  rw [hr] at hhaystack
  cases r with
  | error e =>
    rw [List.append_nil]
    exact hhaystack.fail (fun _ he ↦ (Except.error.inj he).symm) needle.assignments
  | ok v =>
    have hboth := hhaystack.append (hneedle c')
    rcases hr' : needle.eval c' with ⟨r', c''⟩
    rw [hr'] at hboth
    simp only [hr']
    cases r' with
    | error e => exact hboth
    | ok w =>
      simp only
      cases containsValue v w with
      | error e =>
        have hfail := hboth.fail (e := e) (fun _ he ↦ nomatch he) []
        rwa [List.append_nil] at hfail
      | ok b => exact hboth.compute b

theorem effects (t : Tree) (c : Context) : Effects c (t.visits c) t.assignments (t.eval c) := by
  match t with
  | .dot left right => exact effects_dot (effects left c)
  | .assign (.dot left right) source => exact effects_assign (effects left c) (effects source)
  | .call .contain [haystack, needle] => exact effects_contain (effects haystack c) (effects needle)
  | .global g => cases g <;> exact effects_of_still rfl rfl rfl fun _ _ ↦ rfl
  | .attr _ | .variable _ => exact effects_of_still rfl rfl rfl fun _ h ↦ nomatch h
  | .literal _ => exact effects_of_still rfl rfl rfl fun _ _ ↦ rfl
  | .assign (.global _) _ | .assign (.attr _) _ | .assign (.variable _) _ | .assign (.literal _) _
  | .assign (.assign _ _) _ | .assign (.call _ _) _ | .call .contain [] | .call .contain [_]
  | .call .contain (_ :: _ :: _ :: _) => exact effects_of_still rfl rfl rfl fun _ h ↦ nomatch h

end Tree

theorem Tree.sides_eval (t : Tree) (c : Context) : (t.eval c).2.sides = c.sides := by
  rw [(t.effects c).context_eq]
  exact Write.sides_applyAll _ c

theorem Write.of?_eq_some {target source : Tree} {start : Context} {value : Value}
    (h : ((Tree.assign target source).eval start).1 = .ok value) :
    ∃ w, of? (.assign target source, start) = some w ∧ w.start = start ∧
      w.node = .assign target source ∧ w.value = value := by
  obtain ⟨receiver, key, -, -, -, rfl, -⟩ := Tree.exists_of_eval_assign h
  refine ⟨⟨start, receiver, key, source, value⟩, ?_, rfl, rfl, rfl⟩
  rw [of?, h]

/-! ## Any expression -/

/-- **The effects of an evaluation.** An evaluation leaves its context with the values of its
writes stored and the sides of the call unchanged. The writes are assignments of the expression in
the order in which they stand, all of them if the evaluation succeeds; each stores the value of its
right side, which is its own value too, in the context that those before it have led to. Of the
evaluations that take place, every assignment that succeeds is a write, and those that end after
the first error end with this error. -/
theorem eval_effects (t : Tree) (c : Context) :
    (t.eval c).2 = Write.applyAll (t.writes c) c ∧
      (t.eval c).2.sides = c.sides ∧
      (t.writes c).map Write.node <+: t.assignments ∧
      (∀ v, (t.eval c).1 = .ok v → (t.writes c).map Write.node = t.assignments) ∧
      (∀ before w after, t.writes c = before ++ w :: after →
        w.IsStored (Write.applyAll before c)) ∧
      (∀ target source start value, (.assign target source, start) ∈ t.visits c →
        ((Tree.assign target source).eval start).1 = .ok value →
        ∃ w ∈ t.writes c, w.start = start ∧ w.node = .assign target source ∧ w.value = value) ∧
      (t.visits c).Pairwise PassesError := by
  have h := t.effects c
  refine ⟨h.context_eq, t.sides_eval c, h.inOrder, h.complete, ?_, ?_, h.errors⟩
  · intro before w after hwrites
    have hstored := h.stored
    rw [← Tree.writes, hwrites, Write.areStored_append] at hstored
    exact hstored.2.1
  · intro target source start value hvisit hvalue
    obtain ⟨w, hof, hw⟩ := Write.of?_eq_some hvalue
    exact ⟨w, List.mem_filterMap.2 ⟨_, hvisit, hof⟩, hw⟩

end CallCheck.Expr

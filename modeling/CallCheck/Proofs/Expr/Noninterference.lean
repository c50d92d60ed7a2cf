import CallCheck.Proofs.Expr.Handles

/-!
# Sides of a call that are not read

An expression sees a side of the call only where it takes a view of the body or a header of it. The
handles on the way there stand for the side without reading it, so that they are the same whatever
the side is, and whether there is one.

## Main statement

`eval_noninterference`: two calls that differ in one side are the same to every expression that
does not read this side, above all to every one that does not name it. The environment must hold no
handle to begin with: it could refer to the side under any name. The invariant that carries the
induction is `Context.Alike`, which an evaluation keeps because the environments stay equal and
without handles.
-/

namespace CallCheck.Expr

/-! ## Parts of an expression -/

namespace Tree

mutual

/-- An expression and all that it is made of. -/
def parts : Tree → List Tree
  | .dot left right => .dot left right :: (left.parts ++ right.parts)
  | .assign target source => .assign target source :: (target.parts ++ source.parts)
  | .call f args => .call f args :: argParts args
  | t => [t]

/-- Expressions and all that they are made of. -/
def argParts : List Tree → List Tree
  | [] => []
  | t :: rest => t.parts ++ argParts rest

end

theorem mem_parts (t : Tree) : t ∈ t.parts := by
  cases t <;> simp [parts]

mutual

theorem parts_subset : {t u : Tree} → u ∈ t.parts → u.parts ⊆ t.parts
  | .dot left right, u, h => by
    rw [parts, List.mem_cons, List.mem_append] at h
    obtain rfl | h | h := h
    · exact List.Subset.refl _
    · exact fun v hv ↦ List.mem_cons_of_mem _ (List.mem_append_left _ (parts_subset h hv))
    · exact fun v hv ↦ List.mem_cons_of_mem _ (List.mem_append_right _ (parts_subset h hv))
  | .assign target source, u, h => by
    rw [parts, List.mem_cons, List.mem_append] at h
    obtain rfl | h | h := h
    · exact List.Subset.refl _
    · exact fun v hv ↦ List.mem_cons_of_mem _ (List.mem_append_left _ (parts_subset h hv))
    · exact fun v hv ↦ List.mem_cons_of_mem _ (List.mem_append_right _ (parts_subset h hv))
  | .call f args, u, h => by
    rw [parts, List.mem_cons] at h
    obtain rfl | h := h
    · exact List.Subset.refl _
    · exact fun v hv ↦ List.mem_cons_of_mem _ (argParts_subset h hv)
  | .global _, u, h | .attr _, u, h | .variable _, u, h | .literal _, u, h => by
    obtain rfl := List.mem_singleton.1 h
    exact List.Subset.refl _

theorem argParts_subset : {args : List Tree} → {u : Tree} → u ∈ argParts args →
    u.parts ⊆ argParts args
  | t :: rest, u, h => by
    rw [argParts, List.mem_append] at h
    obtain h | h := h
    · exact fun v hv ↦ List.mem_append_left _ (parts_subset h hv)
    · exact fun v hv ↦ List.mem_append_right _ (argParts_subset h hv)

end

end Tree

/-- An expression that reads a side of the call: its body as text, as bytes or as a document, or a
header. -/
inductive ReadsSide (side : Side) : Tree → Prop
  | body {a : Attr} : a = .str ∨ a = .raw ∨ a = .json →
      ReadsSide side (.dot (Handle.body side).tree (.attr a))
  | header {name : String} : ReadsSide side (.dot (Handle.headers side).tree (.variable name))

/-- Nothing in an expression reads a side of the call. -/
def Tree.Ignores (side : Side) (t : Tree) : Prop := ∀ u ∈ t.parts, ¬ ReadsSide side u

theorem Tree.ignores_of_not_mem {side : Side} {t : Tree} (h : .global side.global ∉ t.parts) :
    t.Ignores side := by
  intro u hu hreads
  refine h (Tree.parts_subset hu ?_)
  cases hreads <;> simp [Handle.tree, Tree.parts]

namespace Tree.Ignores

variable {side : Side} {t u v : Tree}

theorem left (h : (t.dot u).Ignores side) : t.Ignores side :=
  fun p hp ↦ h p (List.mem_cons_of_mem _ (List.mem_append_left _ hp))

theorem target (h : (Tree.assign t u).Ignores side) : t.Ignores side :=
  fun p hp ↦ h p (List.mem_cons_of_mem _ (List.mem_append_left _ hp))

theorem source (h : (Tree.assign t u).Ignores side) : u.Ignores side :=
  fun p hp ↦ h p (List.mem_cons_of_mem _ (List.mem_append_right _ hp))

theorem haystack (h : (Tree.call .contain [t, u]).Ignores side) : t.Ignores side :=
  fun p hp ↦ h p (List.mem_cons_of_mem _ (List.mem_append_left _ hp))

theorem needle (h : (Tree.call .contain [t, u]).Ignores side) : u.Ignores side :=
  fun p hp ↦ h p (List.mem_cons_of_mem _ (List.mem_append_right _ (List.mem_append_left _ hp)))

end Tree.Ignores

/-! ## Contexts that differ in one side -/

/-- Two calls that differ in nothing but one side. -/
def Exchanges.SameBut (side : Side) (x y : Exchanges) : Prop :=
  ∀ other, other ≠ side → x.get other = y.get other

/-- Contexts that differ in nothing but one side of the call, and hold no handle. -/
structure Context.Alike (side : Side) (c d : Context) : Prop where
  env_eq : c.env = d.env
  isPlain : c.env.IsPlain
  sides : c.sides.SameBut side d.sides

/-- Evaluations that give the same, in contexts that differ in nothing but one side. -/
structure AlikeResults (side : Side) (p q : Except Error Value × Context) : Prop where
  result_eq : p.1 = q.1
  contexts : p.2.Alike side q.2

variable {side : Side} {c d : Context}

/-- A value has the same attributes in both contexts, if neither a view of the body nor a header of
the side is among them. -/
theorem Context.Alike.get_eq (h : c.Alike side d) {receiver : Value} {name : Name}
    (hbody : ∀ a, receiver = .handle (.body side) → name = .attr a → bodyView? a = none)
    (hheader : ∀ key, receiver = .handle (.headers side) → name ≠ .field key) :
    c.get receiver name = d.get receiver name := by
  cases receiver with
  | handle r =>
    cases r with
    | env =>
      cases name with
      | field key => rw [Context.get_env, Context.get_env, h.env_eq]
      | _ => rfl
    | message other =>
      cases name with
      | attr a => cases a <;> rfl
      | _ => rfl
    | body other =>
      cases name with
      | attr a =>
        rw [Context.get_body, Context.get_body]
        cases hview : bodyView? a with
        | none => rfl
        | some view =>
          have hother : other ≠ side := by
            rintro rfl
            rw [hbody a rfl rfl] at hview
            cases hview
          rw [h.sides other hother]
      | _ => rfl
    | headers other =>
      cases name with
      | field key =>
        have hother : other ≠ side := by
          rintro rfl
          exact hheader key rfl rfl
        rw [Context.get_header, Context.get_header, h.sides other hother]
      | _ => rfl
  | array | object => cases name <;> rfl
  | _ => rfl

theorem eq_of_bodyView_ne_none {a : Attr} (h : bodyView? a ≠ none) :
    a = .str ∨ a = .raw ∨ a = .json := by
  cases a with
  | body | header => exact absurd rfl h
  | str => exact .inl rfl
  | raw => exact .inr (.inl rfl)
  | json => exact .inr (.inr rfl)

/-! ## Evaluations in both contexts -/

/-- An evaluation, and what is done with its value in the context that it leaves. -/
def andThen (p : Except Error Value × Context)
    (f : Value → Context → Except Error Value × Context) : Except Error Value × Context :=
  match p with
  | (.error e, c) => (.error e, c)
  | (.ok value, c) => f value c

namespace AlikeResults

theorem of_contexts (h : c.Alike side d) (r : Except Error Value) :
    AlikeResults side (r, c) (r, d) := ⟨rfl, h⟩

theorem andThen {p q : Except Error Value × Context}
    {f : Value → Context → Except Error Value × Context} (h : AlikeResults side p q)
    (hf : ∀ value {c d}, p.1 = .ok value → c.Alike side d →
      AlikeResults side (f value c) (f value d)) :
    AlikeResults side (CallCheck.Expr.andThen p f) (CallCheck.Expr.andThen q f) := by
  obtain ⟨r, c⟩ := p
  obtain ⟨r', d⟩ := q
  obtain ⟨hresult, hcontexts⟩ := h
  obtain rfl : r = r' := hresult
  cases r with
  | error e => exact .of_contexts hcontexts _
  | ok value => exact hf value rfl hcontexts

theorem dot {left right : Tree} (hc : c.env.IsPlain) (hignores : (left.dot right).Ignores side)
    (hleft : AlikeResults side (left.eval c) (left.eval d)) :
    AlikeResults side ((left.dot right).eval c) ((left.dot right).eval d) := by
  rw [Tree.eval, Tree.eval]
  refine hleft.andThen (f := fun receiver c ↦ ((Name.of right).bind (c.get receiver), c))
    fun receiver c' d' hvalue hcontexts ↦ ⟨?_, hcontexts⟩
  cases hname : Name.of right with
  | error e => rfl
  | ok name =>
    -- What would tell the contexts apart is an expression that reads the side.
    refine hcontexts.get_eq (fun a hreceiver hattr ↦ ?_) (fun key hreceiver hfield ↦ ?_)
    · obtain rfl := Name.of_eq_attr (hattr ▸ hname)
      obtain rfl := left.eq_tree_of_eval hc (hreceiver ▸ hvalue)
      refine Decidable.byContradiction fun hview ↦ ?_
      exact hignores _ (Tree.mem_parts _) (.body (eq_of_bodyView_ne_none hview))
    · obtain rfl := Name.of_eq_field (hfield ▸ hname)
      obtain rfl := left.eq_tree_of_eval hc (hreceiver ▸ hvalue)
      exact hignores _ (Tree.mem_parts _) .header

/-- What is done with the receiver of an assignment in the context that it leaves. -/
def storeIn (right source : Tree) (receiver : Value) (c : Context) : Except Error Value × Context :=
  match assignKey receiver right with
  | .error e => (.error e, c)
  | .ok key => CallCheck.Expr.andThen (source.eval c) fun value c ↦
      if value.isHandle then (.error (.notStorable value.typeName), c)
      else (.ok value, c.set key value)

theorem assign {left right source : Tree}
    (hleft : AlikeResults side (left.eval c) (left.eval d))
    (hsource : ∀ {c d}, Context.Alike side c d →
      AlikeResults side (source.eval c) (source.eval d)) :
    AlikeResults side ((Tree.assign (left.dot right) source).eval c)
      ((Tree.assign (left.dot right) source).eval d) := by
  rw [Tree.eval, Tree.eval]
  refine hleft.andThen (f := storeIn right source) fun receiver c' d' _ hcontexts ↦ ?_
  rw [storeIn, storeIn]
  cases assignKey receiver right with
  | error e => exact .of_contexts hcontexts _
  | ok key =>
    refine (hsource hcontexts).andThen fun value c' d' _ hcontexts ↦ ?_
    split
    · exact .of_contexts hcontexts _
    · rename_i hhandle
      refine ⟨rfl, congrArg (Env.set · key value) hcontexts.env_eq, ?_, hcontexts.sides⟩
      exact hcontexts.isPlain.set (Bool.eq_false_iff.2 hhandle)

theorem contain {haystack needle : Tree}
    (hhaystack : AlikeResults side (haystack.eval c) (haystack.eval d))
    (hneedle : ∀ {c d}, Context.Alike side c d →
      AlikeResults side (needle.eval c) (needle.eval d)) :
    AlikeResults side ((Tree.call .contain [haystack, needle]).eval c)
      ((Tree.call .contain [haystack, needle]).eval d) := by
  rw [Tree.eval, Tree.eval]
  refine hhaystack.andThen (f := fun value c ↦
    CallCheck.Expr.andThen (needle.eval c) fun value' c ↦ (containsValue value value', c))
    fun value c' d' _ hcontexts ↦ ?_
  exact (hneedle hcontexts).andThen fun value' _ _ _ hcontexts ↦ .of_contexts hcontexts _

end AlikeResults

/-- **Evaluations keep contexts alike.** An expression that does not read a side gives the same in
contexts that differ in it, and leaves such contexts. -/
theorem Tree.eval_alike : (t : Tree) → t.Ignores side → {c d : Context} → c.Alike side d →
    AlikeResults side (t.eval c) (t.eval d)
  | .dot left right, hignores, _, _, h => .dot h.isPlain hignores (left.eval_alike hignores.left h)
  | .assign (.dot left right) source, hignores, _, _, h =>
    .assign (left.eval_alike hignores.target.left h) (source.eval_alike hignores.source)
  | .call .contain [haystack, needle], hignores, _, _, h =>
    .contain (haystack.eval_alike hignores.haystack h) (needle.eval_alike hignores.needle)
  | .global g, _, _, _, h => by cases g <;> exact .of_contexts h _
  | .attr _, _, _, _, h | .variable _, _, _, _, h | .literal _, _, _, _, h
  | .assign (.global _) _, _, _, _, h | .assign (.attr _) _, _, _, _, h
  | .assign (.variable _) _, _, _, _, h | .assign (.literal _) _, _, _, _, h
  | .assign (.assign _ _) _, _, _, _, h | .assign (.call _ _) _, _, _, _, h
  | .call .contain [], _, _, _, h | .call .contain [_], _, _, _, h
  | .call .contain (_ :: _ :: _ :: _), _, _, _, h => .of_contexts h _

/-! ## Any expression -/

/-- **A side that is not read does not matter.** Take an environment without handles and two calls
that differ in nothing but one side, which may also be missing. An expression that does not name
the side, and more generally one that takes neither a view of its body nor a header of it, has the
same value or the same error for both calls, and leaves the same environment. -/
theorem eval_noninterference {side : Side} {x y : Exchanges} (hsides : x.SameBut side y) {env : Env}
    (henv : env.IsPlain) (t : Tree) :
    (.global side.global ∉ t.parts → eval x t env = eval y t env) ∧
      ((∀ u ∈ t.parts, ¬ ReadsSide side u) → eval x t env = eval y t env) := by
  have heval (hignores : t.Ignores side) : eval x t env = eval y t env := by
    have halike : Context.Alike side ⟨env, x⟩ ⟨env, y⟩ := ⟨rfl, henv, hsides⟩
    obtain ⟨hresult, hcontexts⟩ := t.eval_alike hignores halike
    exact Prod.ext hresult hcontexts.env_eq
  exact ⟨fun h ↦ heval (Tree.ignores_of_not_mem h), heval⟩

/-- The answer of a call is not seen where the request is stored, nor where the body of the answer
is only held: its text as a value is its name, whether there was an answer or not. -/
theorem eval_response_unread :
    let missing : Exchanges := { request := some ⟨"Ada".toUTF8.toList, []⟩ }
    let answered : Exchanges := { missing with response := some ⟨"Grace".toUTF8.toList, []⟩ }
    let env := ({} : Env).set "name" (.string "Eve")
    let stored : Tree :=
      .assign (.dot (.global .env) (.variable "name"))
        (.dot (Handle.body .request).tree (.attr .str))
    let held : Tree := .call .contain [(Handle.body .response).tree, .literal (.string "body")]
    missing.SameBut .response answered ∧ env.IsPlain ∧
      (.global .res ∉ stored.parts ∧ eval missing stored env = eval answered stored env) ∧
      (.global .res ∈ held.parts ∧ (∀ u ∈ held.parts, ¬ ReadsSide .response u) ∧
        eval missing held env = eval answered held env) := by
  intro missing answered env stored held
  have hsides : missing.SameBut .response answered := by
    intro other hother
    cases other with
    | request => rfl
    | response => exact absurd rfl hother
  have henv : env.IsPlain := Env.isPlain_empty.set rfl
  have hstored : .global .res ∉ stored.parts := by
    simp [stored, Tree.parts, Handle.tree, Side.global]
  have hheld : ∀ u ∈ held.parts, ¬ ReadsSide .response u := by
    intro u hu hreads
    cases hreads <;> simp [held, Tree.parts, Tree.argParts, Handle.tree, Side.global] at hu
  refine ⟨hsides, henv, ⟨hstored, (eval_noninterference hsides henv stored).1 hstored⟩, ?_, hheld,
    (eval_noninterference hsides henv held).2 hheld⟩
  simp [held, Tree.parts, Tree.argParts, Handle.tree, Side.global]

end CallCheck.Expr

import CallCheck.Probe.Harness
import CallCheck.Proofs.Expr.Handles

/-!
# Evaluations of a harness

Whatever expectations and events do to what expressions see, evaluations do it, one after the
other. Each of them starts from what the one before it has left, with a value or without one. What
every evaluation keeps is kept by all of them: the sides of the call, and that the environment holds
no handle.

## Main statement

`perform_keeps_plain`: an environment without handles has none after any sequence of operations on
the harness, so that what is read from it, or filled into a template, does not depend on the call
that is visible by then.
-/

namespace CallCheck.Probe

open CallCheck.Expr (Context Exchanges PlainValue Tree Value)

/-- An evaluation: a source, and what is seen by it. -/
structure Evaluation where
  /-- What is evaluated. -/
  source : String
  /-- The environment and the call that the source is evaluated with. -/
  harness : Harness

/-- Evaluations that follow one another from one harness to another: each sees what the one before
it has left. -/
inductive Leads : Harness → List Evaluation → Harness → Prop
  | nil {h : Harness} : Leads h [] h
  | cons {h h' : Harness} {source : String} {later : List Evaluation} :
      Leads (h.evaluate source).2 later h' → Leads h (⟨source, h⟩ :: later) h'

namespace Leads

variable {h h' h'' : Harness} {es es' : List Evaluation}

theorem of_evaluate {source : String} {result : Except Expr.Error Value}
    (hevaluate : h.evaluate source = (result, h')) (hlater : Leads h' es h'') :
    Leads h (⟨source, h⟩ :: es) h'' :=
  .cons (by rwa [hevaluate])

theorem append (hes : Leads h es h') (hes' : Leads h' es' h'') : Leads h (es ++ es') h'' := by
  induction hes with
  | nil => exact hes'
  | cons _ ih => exact .cons (ih hes')

/-- **Run lemma.** What every evaluation keeps holds whenever one starts, and in the end. -/
theorem keeps {P : Harness → Prop} (hkeeps : ∀ h source, P h → P (h.evaluate source).2)
    (hes : Leads h es h') (hstart : P h) : (∀ ev ∈ es, P ev.harness) ∧ P h' := by
  induction hes with
  | nil => exact ⟨fun _ hmem ↦ absurd hmem List.not_mem_nil, hstart⟩
  | @cons h _ source _ _ ih =>
    obtain ⟨hlater, hend⟩ := ih (hkeeps h source hstart)
    exact ⟨List.forall_mem_cons.2 ⟨hstart, hlater⟩, hend⟩

end Leads

/-! ## Expectations and events -/

/-- An expectation is not met if its value is false. -/
def isUnmet (value : Value) : Bool := decide (value.asBool? = some false)

theorem isUnmet_iff {value : Value} : isUnmet value = true ↔ value.asBool? = some false :=
  decide_eq_true_iff

namespace Harness

/-- The evaluations of sources in order, up to the first that fails or has a value that ends
them. -/
def evaluations (ends : Value → Bool) (h : Harness) : List String → List Evaluation
  | [] => []
  | source :: rest =>
    ⟨source, h⟩ ::
      match h.evaluate source with
      | (.error _, _) => []
      | (.ok value, h) => if ends value then [] else h.evaluations ends rest

theorem sources_evaluations (ends : Value → Bool) (h : Harness) (sources : List String) :
    (h.evaluations ends sources).map Evaluation.source <+: sources := by
  induction sources generalizing h with
  | nil => exact List.prefix_refl []
  | cons source rest ih =>
    refine List.cons_prefix_cons.2 ⟨rfl, ?_⟩
    split
    · exact List.nil_prefix
    · split
      · exact List.nil_prefix
      · exact ih _

/-- Expectations are checked by evaluations of theirs, of all of them if they are met. -/
theorem leads_check (h : Harness) (sources : List String) :
    Leads h (h.evaluations isUnmet sources) (h.check sources).2 ∧
      ((h.check sources).1 = .ok () →
        (h.evaluations isUnmet sources).map Evaluation.source = sources) := by
  induction sources generalizing h with
  | nil => exact ⟨.nil, fun _ ↦ rfl⟩
  | cons source rest ih =>
    rw [check, evaluations]
    rcases hevaluate : h.evaluate source with ⟨result, h'⟩
    cases result with
    | error e => exact ⟨.of_evaluate hevaluate .nil, fun hok ↦ nomatch hok⟩
    | ok value =>
      dsimp only
      by_cases hunmet : value.asBool? = some false
      · rw [if_pos hunmet, if_pos (isUnmet_iff.2 hunmet)]
        exact ⟨.of_evaluate hevaluate .nil, fun hok ↦ nomatch hok⟩
      · rw [if_neg hunmet, if_neg (mt isUnmet_iff.1 hunmet)]
        obtain ⟨hleads, hsources⟩ := ih h'
        exact ⟨.of_evaluate hevaluate hleads, fun hok ↦ congrArg (source :: ·) (hsources hok)⟩

theorem leads_apply (h : Harness) (sources : List String) :
    Leads h (h.evaluations (fun _ ↦ false) sources) (h.apply sources).2 ∧
      ((h.apply sources).1 = .ok () →
        (h.evaluations (fun _ ↦ false) sources).map Evaluation.source = sources) := by
  induction sources generalizing h with
  | nil => exact ⟨.nil, fun _ ↦ rfl⟩
  | cons source rest ih =>
    rw [apply, evaluations]
    rcases hevaluate : h.evaluate source with ⟨result, h'⟩
    cases result with
    | error e => exact ⟨.of_evaluate hevaluate .nil, fun hok ↦ nomatch hok⟩
    | ok value =>
      obtain ⟨hleads, hsources⟩ := ih h'
      exact ⟨.of_evaluate hevaluate hleads, fun hok ↦ congrArg (source :: ·) (hsources hok)⟩

/-! ## What evaluations keep -/

theorem evaluate_keeps {P : Context → Prop} (htree : ∀ (t : Tree) c, P c → P (t.eval c).2)
    {h : Harness} (hstart : P h.toContext) (source : String) :
    P (h.evaluate source).2.toContext := by
  change P (h.toContext.evaluate source).2
  rw [Context.evaluate]
  split
  · exact hstart
  · exact htree _ _ hstart

theorem sides_evaluate (h : Harness) (source : String) : (h.evaluate source).2.sides = h.sides :=
  evaluate_keeps (P := fun c ↦ c.sides = h.sides) (fun t c hc ↦ (t.sides_eval c).trans hc) rfl
    source

theorem isPlain_evaluate {h : Harness} (hplain : h.env.IsPlain) (source : String) :
    (h.evaluate source).2.env.IsPlain :=
  evaluate_keeps (P := fun c ↦ c.env.IsPlain) (fun t _ ↦ t.eval_isPlain) hplain source

end Harness

/-- Evaluations see one call. -/
theorem Leads.sides_eq {h h' : Harness} {es : List Evaluation} (hes : Leads h es h') :
    (∀ ev ∈ es, ev.harness.sides = h.sides) ∧ h'.sides = h.sides :=
  hes.keeps (fun g source hg ↦ (g.sides_evaluate source).trans hg) rfl

theorem Leads.isPlain {h h' : Harness} {es : List Evaluation} (hes : Leads h es h')
    (hplain : h.env.IsPlain) : h'.env.IsPlain :=
  (hes.keeps (P := fun h ↦ h.env.IsPlain)
    (fun _ source hg ↦ Harness.isPlain_evaluate hg source) hplain).2

/-! ## Operations -/

/-- What is done with a harness. -/
inductive Operation
  /-- An expression is evaluated, whether or not there is a source for it. -/
  | tree (t : Tree)
  /-- The expression that a source spells is evaluated. -/
  | source (text : String)
  /-- Expectations are checked. -/
  | check (expectations : List String)
  /-- Events are applied. -/
  | apply (events : List String)
  /-- A call is made visible. -/
  | record (payload : String) (metadata : List (String × String)) (reply : Option Json)
      (answered : List (String × String))

namespace Harness

/-- What an operation leaves, with or without success. -/
def perform (h : Harness) : Operation → Harness
  | .tree t => ⟨(t.eval h.toContext).2⟩
  | .source text => (h.evaluate text).2
  | .check expectations => (h.check expectations).2
  | .apply events => (h.apply events).2
  | .record payload metadata reply answered => h.record payload metadata reply answered

/-- What operations leave, one after the other. -/
def performAll (h : Harness) (ops : List Operation) : Harness := ops.foldl perform h

/-- **Step lemma.** An operation stores no handle. -/
theorem isPlain_perform {h : Harness} (hplain : h.env.IsPlain) (op : Operation) :
    (h.perform op).env.IsPlain := by
  cases op with
  | tree t => exact t.eval_isPlain hplain
  | source text => exact isPlain_evaluate hplain text
  | check expectations => exact (h.leads_check expectations).1.isPlain hplain
  | apply events => exact (h.leads_apply events).1.isPlain hplain
  | record => exact hplain

theorem isPlain_performAll {h : Harness} (hplain : h.env.IsPlain) (ops : List Operation) :
    (h.performAll ops).env.IsPlain := by
  induction ops generalizing h with
  | nil => exact hplain
  | cons op ops ih => exact ih (isPlain_perform hplain op)

end Harness

/-- **No handle is stored.** Whatever is evaluated, checked and applied, with or without success,
and whatever calls are recorded in between, an environment without handles has none afterwards. So
there is plain data that `$env.name` gives and templates are filled with, and it is the same
whatever the request and the response are by then. -/
theorem perform_keeps_plain {h : Harness} (hplain : h.env.IsPlain) (ops : List Operation) :
    let left := h.performAll ops
    left.env.IsPlain ∧
      ∃ data : String → Option PlainValue, ∀ sides : Exchanges,
        (∀ name, (Tree.dot (.global .env) (.variable name)).eval ⟨left.env, sides⟩ =
          (.ok (((data name).map (·.value)).getD .null), ⟨left.env, sides⟩)) ∧
        ∀ text, ({ left with sides } : Harness).substitute text =
          Text.Template.fillNames (fun name ↦ (data name).map (·.value.text)) text := by
  intro left
  have hleft : left.env.IsPlain := Harness.isPlain_performAll hplain ops
  obtain ⟨data, hdata⟩ := hleft.exists_data
  refine ⟨hleft, data, fun sides ↦ ⟨fun name ↦ ?_, fun text ↦ ?_⟩⟩
  · rw [← hdata]
    rfl
  · rw [Harness.substitute]
    congr 1
    funext name
    rw [hdata, Option.map_map]
    rfl

/-- A call is recorded, the response as a whole is assigned in vain, and the text of the request is
stored. Then there is another call. -/
def storing : List Operation :=
  [.record "Ada" [] none [],
    .tree (.assign (.dot (.global .env) (.variable "answer")) (.global .res)),
    .tree (.assign (.dot (.global .env) (.variable "name"))
      (.dot (Expr.Handle.body .request).tree (.attr .str))),
    .record "Eve" [] none []]

/-- Only the text comes into the environment, and it stays the same when there is another call. -/
theorem perform_keeps_plain_storing :
    let left := ({} : Harness).performAll storing
    ({} : Harness).env.IsPlain ∧ left.env.IsPlain ∧
      left.env.bindings.map (fun b ↦ (b.1, b.2.text)) = [("name", "Ada")] ∧
      ∃ data : String → Option PlainValue,
        (Tree.dot (.global .env) (.variable "name")).eval left.toContext =
          (.ok (((data "name").map (·.value)).getD .null), left.toContext) := by
  have hplain : ({} : Harness).env.IsPlain := Expr.Env.isPlain_empty
  obtain ⟨hleft, data, hdata⟩ := perform_keeps_plain hplain storing
  refine ⟨hplain, hleft, ?_, data, (hdata _).1 "name"⟩
  decide +kernel

end CallCheck.Probe

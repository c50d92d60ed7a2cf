import CallCheck.Proofs.Except
import CallCheck.Proofs.Expr.Effects

/-!
# Where handles come from

A handle is a reference to a part of the call. Nothing stores one: an assignment checks its value,
so an environment without handles stays without them. Nor can a handle come out of such an
environment, out of a document or out of a function, so that an expression whose value is a handle
spells out the part of the call that the handle stands for.

## Main statements

`Tree.eval_isPlain`: an evaluation leaves an environment without handles if it found one.
`Tree.eq_tree_of_eval`: the value of an expression is a handle only if the expression is the one
way to write this handle.
-/

namespace CallCheck.Expr

/-! ## Environments without handles -/

/-- An environment that holds no handle. -/
def Env.IsPlain (env : Env) : Prop :=
  ∀ name value, env.get? name = some value → value.isHandle = false

theorem Env.isPlain_empty : ({} : Env).IsPlain := fun _ _ h ↦ nomatch h

theorem Env.IsPlain.set {env : Env} {name : String} {value : Value} (henv : env.IsPlain)
    (hvalue : value.isHandle = false) : (env.set name value).IsPlain := by
  intro other found hfound
  rw [Env.get?_set] at hfound
  split at hfound
  · rwa [← Option.some.inj hfound]
  · exact henv other found hfound

/-- A value that is not a handle: data that stands for nothing else. -/
structure PlainValue where
  /-- The value. -/
  value : Value
  isPlain : value.isHandle = false

/-- What an environment without handles stores is data. -/
theorem Env.IsPlain.exists_data {env : Env} (henv : env.IsPlain) :
    ∃ data : String → Option PlainValue, ∀ name, env.get? name = (data name).map (·.value) := by
  refine ⟨fun name ↦ (env.get? name).pmap PlainValue.mk (henv name), fun name ↦ ?_⟩
  rw [Option.map_pmap, Option.pmap_eq_map, Option.map_id']

theorem isHandle_of_assign {target source : Tree} {c : Context} {value : Value}
    (h : ((Tree.assign target source).eval c).1 = .ok value) : value.isHandle = false := by
  obtain ⟨-, -, -, -, -, -, -, -, hhandle⟩ := Tree.exists_of_eval_assign h
  exact hhandle

theorem Write.AreStored.isPlain {ws : List Write} {c : Context} (h : Write.AreStored c ws)
    (hc : c.env.IsPlain) : (Write.applyAll ws c).env.IsPlain := by
  induction ws generalizing c with
  | nil => exact hc
  | cons w ws ih =>
    obtain ⟨⟨-, -, -, -, hnode⟩, hws⟩ := h
    exact ih hws (hc.set (isHandle_of_assign (congrArg Prod.fst hnode)))

/-- **Handles are not stored.** An evaluation, whether it succeeds or fails, leaves an environment
without handles as one. -/
theorem Tree.eval_isPlain (t : Tree) {c : Context} (hc : c.env.IsPlain) :
    (t.eval c).2.env.IsPlain := by
  have heffects := t.effects c
  rw [heffects.context_eq]
  exact heffects.stored.isPlain hc

/-! ## Expressions for handles -/

/-- The name of a side of the call in expressions. -/
def Side.global : Side → Global
  | .request => .req
  | .response => .res

/-- How a handle is written. -/
def Handle.tree : Handle → Tree
  | .env => .global .env
  | .message side => .global side.global
  | .body side => .dot (.global side.global) (.attr .body)
  | .headers side => .dot (.global side.global) (.attr .header)

theorem Name.of_eq_attr {t : Tree} {a : Attr} (h : Name.of t = .ok (.attr a)) : t = .attr a := by
  cases t with
  | attr b => cases h; rfl
  | literal l => cases l <;> cases h
  | _ => cases h

theorem Name.of_eq_field {t : Tree} {key : String} (h : Name.of t = .ok (.field key)) :
    t = .variable key := by
  cases t with
  | literal l => cases l <;> cases h
  | attr | global | dot | assign | call => cases h
  | _ => cases h; rfl

theorem isHandle_ofJson (j : Json) : (Value.ofJson j).isHandle = false := by
  cases j with
  | number n =>
    cases n with
    | int i =>
      rw [Value.ofJson, Value.ofNumber]
      split <;> rfl
    | real x => rfl
  | _ => rfl

theorem isHandle_valueOr (j : Option Json) : (valueOr j).isHandle = false := by
  cases j with
  | none => rfl
  | some j => exact isHandle_ofJson j

theorem isHandle_of_bodyView {a : Attr} {view : List UInt8 → Except Error Value}
    {body : List UInt8} {value : Value} (hview : bodyView? a = some view)
    (h : view body = .ok value) : value.isHandle = false := by
  cases a with
  | body | header => cases hview
  | json =>
    cases hview
    dsimp only at h
    split at h
    · rw [← Except.ok.inj h]
      exact isHandle_ofJson _
    · cases h
  | str | raw =>
    cases hview
    cases h
    rfl

theorem isHandle_of_containsValue {haystack needle value : Value}
    (h : containsValue haystack needle = .ok value) : value.isHandle = false := by
  cases needle with
  | string s => cases h; rfl
  | _ => cases h

theorem Context.get_env (c : Context) (key : String) :
    c.get (.handle .env) (.field key) = .ok ((c.env.get? key).getD .null) := rfl

theorem Context.get_header (c : Context) (side : Side) (key : String) :
    c.get (.handle (.headers side)) (.field key) =
      (c.sides.get side).bind fun x ↦ .ok (((x.header? key).map Value.string).getD .null) := rfl

theorem Context.get_body (c : Context) (side : Side) (a : Attr) :
    c.get (.handle (.body side)) (.attr a) =
      match bodyView? a with
      | some view => (c.sides.get side).bind fun x ↦ view x.body
      | none => .error ((Name.attr a).unknownOn (.handle (.body side))) := rfl

/-- An attribute that is a handle is the body of a side or its headers. -/
theorem Context.get_eq_handle {c : Context} {receiver : Value} {name : Name} {handle : Handle}
    (hc : c.env.IsPlain) (h : c.get receiver name = .ok (.handle handle)) :
    ∃ side, receiver = .handle (.message side) ∧
      (name = .attr .body ∧ handle = .body side ∨
        name = .attr .header ∧ handle = .headers side) := by
  have hplain {value : Value} (hvalue : value.isHandle = false) :
      (.ok value : Except Error Value) ≠ .ok (.handle handle) := by
    intro heq
    rw [Except.ok.inj heq] at hvalue
    cases hvalue
  cases receiver with
  | handle r =>
    cases r with
    | env =>
      cases name with
      | field key =>
        refine absurd h (hplain ?_)
        cases hkey : c.env.get? key with
        | none => rfl
        | some value => exact hc key value hkey
      | _ => cases h
    | message side =>
      cases name with
      | attr a =>
        cases a with
        | body => cases h; exact ⟨side, rfl, .inl ⟨rfl, rfl⟩⟩
        | header => cases h; exact ⟨side, rfl, .inr ⟨rfl, rfl⟩⟩
        | _ => cases h
      | _ => cases h
    | body side =>
      cases name with
      | attr a =>
        rw [get_body] at h
        split at h
        · rename_i view hview
          obtain ⟨x, -, hx⟩ := bind_eq_ok_iff.1 h
          exact absurd rfl (hplain (isHandle_of_bodyView hview hx))
        · cases h
      | _ => cases h
    | headers side =>
      cases name with
      | field key =>
        obtain ⟨x, -, hx⟩ := bind_eq_ok_iff.1 h
        refine absurd hx (hplain ?_)
        cases x.header? key <;> rfl
      | _ => cases h
  | array items =>
    cases name with
    | index i =>
      refine absurd h (hplain ?_)
      split
      · exact isHandle_valueOr _
      · rfl
    | _ => cases h
  | object members =>
    cases name with
    | field key => exact absurd h (hplain (isHandle_valueOr _))
    | index i => exact absurd h (hplain (isHandle_valueOr _))
    | attr a => cases h
  | _ => cases h

/-- **What has a handle as its value writes the handle.** -/
theorem Tree.eq_tree_of_eval {handle : Handle} : (t : Tree) → {c : Context} → c.env.IsPlain →
    (t.eval c).1 = .ok (.handle handle) → t = handle.tree
  | .global g, c, _, h => by cases g <;> cases h <;> rfl
  | .attr _, _, _, h => nomatch h
  | .variable _, _, _, h => nomatch h
  | .literal l, _, _, h => by cases l <;> cases h
  | .dot left right, c, hc, h => by
    have hleft := left.eval_isPlain hc
    rw [Tree.eval] at h
    split at h
    · cases h
    · rename_i receiver c' heval
      rw [heval] at hleft
      obtain ⟨name, hname, hget⟩ := bind_eq_ok_iff.1 h
      obtain ⟨side, rfl, hhandle⟩ := Context.get_eq_handle hleft hget
      have hmessage := left.eq_tree_of_eval hc (congrArg Prod.fst heval)
      obtain ⟨rfl, rfl⟩ | ⟨rfl, rfl⟩ := hhandle <;>
      · rw [hmessage, Name.of_eq_attr hname]
        rfl
  | .assign _ _, _, _, h => nomatch isHandle_of_assign h
  | .call .contain [haystack, needle], c, _, h => by
    rw [Tree.eval] at h
    split at h
    · cases h
    · split at h
      · cases h
      · cases isHandle_of_containsValue h
  | .call .contain [], _, _, h | .call .contain [_], _, _, h
  | .call .contain (_ :: _ :: _ :: _), _, _, h => nomatch h

end CallCheck.Expr

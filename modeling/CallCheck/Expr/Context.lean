import CallCheck.Expr.Value
import CallCheck.Text.Basic

/-!
# What expressions can read

The environment, which assignments write, and the two sides of a call, which nothing in an
expression changes.
-/

namespace CallCheck.Expr

/-- Named values. -/
structure Env where
  /-- The names and their values, one for each name, the oldest first. -/
  bindings : List (String × Value) := []
  deriving Repr

namespace Env

/-- The value of a name. -/
def get? (env : Env) (name : String) : Option Value := env.bindings.lookup name

/-- The bindings with one of them set. -/
def put (name : String) (value : Value) : List (String × Value) → List (String × Value)
  | [] => [(name, value)]
  | (k, v) :: rest => if k = name then (name, value) :: rest else (k, v) :: put name value rest

/-- The environment in which a name has a value and all else is as before. -/
def set (env : Env) (name : String) (value : Value) : Env := ⟨put name value env.bindings⟩

/-- The environment of a list of bindings, in which the last of a name counts. -/
def ofList (bindings : List (String × Value)) : Env :=
  bindings.foldl (fun env b ↦ env.set b.1 b.2) {}

theorem lookup_put (name : String) (value : Value) (bindings : List (String × Value))
    (other : String) :
    (put name value bindings).lookup other =
      if other = name then some value else bindings.lookup other := by
  induction bindings with
  | nil =>
    by_cases h : other = name
    · simp [put, h]
    · simp [put, List.lookup_cons, beq_eq_false_iff_ne.mpr h, h]
  | cons b rest ih =>
    obtain ⟨k, v⟩ := b
    by_cases hk : k = name
    · subst hk
      by_cases h : other = k
      · simp [put, h]
      · simp [put, List.lookup_cons, beq_eq_false_iff_ne.mpr h, h]
    · by_cases h : other = k
      · subst h
        simp [put, hk]
      · simp [put, hk, List.lookup_cons, beq_eq_false_iff_ne.mpr h, ih]

/-- Setting a name changes its value and no other. -/
@[simp] theorem get?_set (env : Env) (name : String) (value : Value) (other : String) :
    (env.set name value).get? other = if other = name then some value else env.get? other :=
  lookup_put name value env.bindings other

end Env

/-- One side of a call: a body and headers. -/
structure Exchange where
  /-- The bytes of the body. -/
  body : List UInt8
  /-- The headers in order. -/
  headers : List (String × String) := []
  deriving DecidableEq, Repr

/-- The value of the first header of a name, in whatever case it is written. -/
def Exchange.header? (x : Exchange) (name : String) : Option String :=
  (x.headers.find? fun h ↦ Text.eqIgnoringCase h.1 name).map (·.2)

/-- The two sides of a call, as far as they are known. -/
structure Exchanges where
  /-- The request. -/
  request : Option Exchange := none
  /-- The response. -/
  response : Option Exchange := none
  deriving DecidableEq, Repr

/-- A side of the call, or the error that there is none. -/
def Exchanges.get (x : Exchanges) (side : Side) : Except Error Exchange :=
  match match side with
    | .request => x.request
    | .response => x.response with
  | some e => .ok e
  | none => .error (.unavailable side.name)

/-- What an expression is evaluated in. -/
structure Context where
  /-- The environment. -/
  env : Env := {}
  /-- The call made last. -/
  sides : Exchanges := {}
  deriving Repr

/-- The context in which a name has a value and all else is as before. -/
def Context.set (c : Context) (name : String) (value : Value) : Context :=
  { c with env := c.env.set name value }

@[simp] theorem Context.sides_set (c : Context) (name : String) (value : Value) :
    (c.set name value).sides = c.sides := rfl

end CallCheck.Expr

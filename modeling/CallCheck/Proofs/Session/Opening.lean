import CallCheck.Call.Resolve
import CallCheck.Proofs.Except
import CallCheck.Session.Basic

/-!
# Opening sessions

Which hosts are dialled while a session is opened, and whose error comes of it if the method cannot
be found. The steps are taken once more in a monad of which they only know that it can dial
(`connectM`). In the identity monad this is `connect`; with a log of the dialled hosts
(`recording`) it also says how often the network is used.

## Main statement

`connect_of_resolve_error`: with a schema in files, an error about the target or about the schema is
the error of opening the session, and nothing is dialled. An error about the method is noticed only
when there is a connection: options that make no sense and a host that does not answer come first.
-/

namespace CallCheck.Session

open Call (Error Target)
open Schema (Pool)

variable {network : Network} {files : Files} {config : Config} {log : List (String × Transport)}

/-! ## The steps, and who dials -/

section

variable {m : Type → Type} [Monad m]

/-- A connection to a host that is dialled by an action. -/
def Connection.establishM (dial : String → Transport → m Dial) (host : String) (t : Transport) :
    ExceptT Error m Connection :=
  match t.fault? host with
  | some fault => throw (.invalidConfig fault)
  | none => do
    let answer ← dial host t
    ExceptT.mk (pure (Connection.dial (fun _ _ ↦ answer) host t))

/-- The connection and the schema of a configuration, the host dialled by an action. -/
def prepareM (dial : String → Transport → m Dial) (files : Files) (config : Config) (t : Target) :
    ExceptT Error m (Connection × Pool) :=
  match config.schema with
  | .reflection => do
    let connection ← Connection.establishM dial config.host config.transport
    let pool ← ExceptT.mk (pure ((Reflection.loadPool connection.peer.reflection t).run.run []).1)
    return (connection, pool)
  | schema => do
    let pool ← ExceptT.mk (pure (schema.load files))
    let connection ← Connection.establishM dial config.host config.transport
    return (connection, pool)

/-- Opens a session, the host dialled by an action. -/
def connectM (dial : String → Transport → m Dial) (files : Files) (config : Config) :
    ExceptT Error m Session := do
  let t ← ExceptT.mk (pure (Target.parse config.target))
  let (connection, pool) ← prepareM dial files config t
  let method ← ExceptT.mk (pure (pool.lookup t))
  return { config, connection, pool, method }

end

theorem run_mk_bind_id {α β : Type} (x : Except Error α) (f : α → ExceptT Error Id β) :
    (ExceptT.mk (pure x) >>= f).run.run = x >>= fun a ↦ (f a).run.run := by
  cases x <;> rfl

theorem run_establishM_bind_id {β : Type} (host : String) (t : Transport)
    (f : Connection → ExceptT Error Id β) :
    (Connection.establishM (fun host t ↦ pure (network host t)) host t >>= f).run.run =
      Connection.establish network host t >>= fun c ↦ (f c).run.run := by
  rw [Connection.establishM, Connection.establish]
  cases t.fault? host with
  | some fault => rfl
  | none => exact run_mk_bind_id (Connection.dial network host t) f

/-- Without effects it is the same opening. -/
theorem run_connectM_id (network : Network) (files : Files) (config : Config) :
    (connectM (m := Id) (fun host t ↦ pure (network host t)) files config).run.run =
      connect network files config := by
  rw [connectM, connect, run_mk_bind_id]
  congr 1
  funext t
  rw [prepareM, prepare]
  cases config.schema <;>
    simp only [bind_assoc, pure_bind, run_mk_bind_id, run_establishM_bind_id] <;> rfl

/-- Dials, and notes down what is dialled. -/
def recording (network : Network) (host : String) (t : Transport) :
    StateM (List (String × Transport)) Dial := do
  modify (· ++ [(host, t)])
  return network host t

/-- What comes of opening a session, and what is dialled meanwhile, in order. -/
def recorded (network : Network) (files : Files) (config : Config) :
    Except Error Session × List (String × Transport) :=
  ((connectM (recording network) files config).run.run []).run

/-- What is dialled for a connection. -/
def Connection.dials (host : String) (t : Transport) : List (String × Transport) :=
  match t.fault? host with
  | some _ => []
  | none => [(host, t)]

theorem run_mk_bind {α β : Type} (x : Except Error α)
    (f : α → ExceptT Error (StateM (List (String × Transport))) β) :
    ((ExceptT.mk (pure x) >>= f).run.run log).run =
      match x with
      | .ok a => ((f a).run.run log).run
      | .error e => (.error e, log) := by
  cases x <;> rfl

theorem run_establishM_bind {β : Type} (host : String) (t : Transport)
    (f : Connection → ExceptT Error (StateM (List (String × Transport))) β) :
    ((Connection.establishM (recording network) host t >>= f).run.run log).run =
      match Connection.establish network host t with
      | .ok c => ((f c).run.run (log ++ Connection.dials host t)).run
      | .error e => (.error e, log ++ Connection.dials host t) := by
  rw [Connection.establishM, Connection.establish, Connection.dials]
  cases t.fault? host with
  | some fault =>
    simp only [List.append_nil]
    rfl
  | none =>
    change ((ExceptT.mk (pure (Connection.dial network host t)) >>= f).run.run
      (log ++ [(host, t)])).run = _
    rw [run_mk_bind]
    cases Connection.dial network host t <;> rfl

/-- What is dialled while a session is opened. -/
def dials (files : Files) (config : Config) : List (String × Transport) :=
  match Target.parse config.target with
  | .error _ => []
  | .ok _ =>
    match config.schema with
    | .reflection => Connection.dials config.host config.transport
    | schema =>
      match schema.load files with
      | .error _ => []
      | .ok _ => Connection.dials config.host config.transport

theorem recorded_eq :
    recorded network files config = (connect network files config, dials files config) := by
  rw [recorded, connectM, connect, dials, run_mk_bind]
  cases Target.parse config.target with
  | error e => rfl
  | ok t =>
    dsimp only
    rw [ok_bind, prepareM, prepare]
    cases hschema : config.schema with
    | reflection =>
      simp only [bind_assoc, pure_bind]
      rw [run_establishM_bind, List.nil_append]
      cases Connection.establish network config.host config.transport with
      | error e => rfl
      | ok c =>
        simp only [run_mk_bind, ok_bind]
        cases (StateT.run (ExceptT.run (Reflection.loadPool c.peer.reflection t)) []).fst with
        | error e => rfl
        | ok p =>
          simp only [ok_bind]
          cases p.lookup t <;> rfl
    | _ =>
      simp only [bind_assoc, pure_bind, run_mk_bind]
      cases Schema.Origin.load files _ with
      | error e => rfl
      | ok p =>
        simp only [ok_bind, run_establishM_bind, List.nil_append]
        cases Connection.establish network config.host config.transport with
        | error e => rfl
        | ok c =>
          simp only [run_mk_bind, ok_bind]
          cases p.lookup t <;> rfl

/-! ## Schemas in files -/

theorem connect_eq (hschema : config.schema ≠ .reflection) :
    connect network files config = do
      let t ← Target.parse config.target
      let pool ← config.schema.load files
      let connection ← Connection.establish network config.host config.transport
      let method ← pool.lookup t
      return { config, connection, pool, method } := by
  rw [connect]
  simp only [prepare]
  cases h : config.schema with
  | reflection => exact absurd h hschema
  | _ => simp only [bind_assoc, pure_bind]

theorem dials_eq (hschema : config.schema ≠ .reflection) {t : Target}
    (ht : Target.parse config.target = .ok t) :
    dials files config =
      match config.schema.load files with
      | .error _ => []
      | .ok _ => Connection.dials config.host config.transport := by
  rw [dials, ht]
  cases h : config.schema with
  | reflection => exact absurd h hschema
  | _ => rfl

/-- **Errors about the target or about the schema come first, an error about the method last.** When
no method can be found with a schema in files, the error of opening the session is that of finding
the method if the target cannot be read or if the schema cannot be loaded, and nothing is dialled.
Otherwise it is an error about the options, and nothing is dialled, or the host is dialled, once,
and the error is that of dialling, if it fails, and that of finding the method, if it does not. -/
theorem connect_of_resolve_error {e : Error} (hschema : config.schema ≠ .reflection)
    (hresolve : Schema.resolve files config.target config.schema = .error e) (network : Network) :
    (connectM (m := Id) (fun host t ↦ pure (network host t)) files config).run.run =
      connect network files config ∧
    (recorded network files config).1 = connect network files config ∧
    ((∀ t p, Target.parse config.target = .ok t → config.schema.load files ≠ .ok p) →
      connect network files config = .error e ∧ (recorded network files config).2 = []) ∧
    ∀ t p, Target.parse config.target = .ok t → config.schema.load files = .ok p →
      p.lookup t = .error e ∧
      (∀ fault, config.transport.fault? config.host = some fault →
        connect network files config = .error (.invalidConfig fault) ∧
        (recorded network files config).2 = []) ∧
      (config.transport.fault? config.host = none →
        (recorded network files config).2 = [(config.host, config.transport)] ∧
        (∀ e', Connection.dial network config.host config.transport = .error e' →
          connect network files config = .error e') ∧
        ∀ c, Connection.dial network config.host config.transport = .ok c →
          connect network files config = .error e) := by
  refine ⟨run_connectM_id network files config, by rw [recorded_eq], fun hnone ↦ ?_,
    fun t p ht hp ↦ ?_⟩
  · rw [recorded_eq, connect_eq hschema]
    rw [Schema.resolve] at hresolve
    cases ht : Target.parse config.target with
    | error e' =>
      rw [ht] at hresolve
      cases hresolve
      rw [dials, ht]
      exact ⟨rfl, rfl⟩
    | ok t =>
      cases hp : config.schema.load files with
      | ok p => exact absurd hp (hnone t p ht)
      | error e' =>
        rw [ht, ok_bind, hp] at hresolve
        cases hresolve
        rw [dials_eq hschema ht, hp]
        exact ⟨rfl, rfl⟩
  · rw [Schema.resolve, ht, ok_bind, hp, ok_bind] at hresolve
    rw [recorded_eq, dials_eq hschema ht, connect_eq hschema, ht, ok_bind, hp, ok_bind,
      Connection.establish, Connection.dials]
    refine ⟨hresolve, fun fault hfault ↦ ?_, fun hfault ↦ ?_⟩
    · rw [hfault]
      exact ⟨rfl, rfl⟩
    · rw [hfault]
      refine ⟨rfl, fun e' hdial ↦ ?_, fun c hdial ↦ ?_⟩
      · rw [hdial]
        rfl
      · rw [hdial, ok_bind, hresolve]
        rfl

/-- A file with a descriptor set that declares nothing. -/
def emptySet : Files := ⟨[("empty.bin", [])]⟩

theorem load_emptySet : Schema.Origin.load emptySet (.descriptorSet "empty.bin") = .ok {} :=
  toOption_eq_some_iff.1 (by decide +kernel)

/-- A method of a service that is not declared. -/
def undeclared (authority : Option String) : Config :=
  { host := "localhost:1", target := "Service/Method", schema := .descriptorSet "empty.bin",
    transport := { authority } }

theorem parse_undeclared (authority : Option String) :
    Target.parse (undeclared authority).target = .ok ⟨"Service", "Method"⟩ := by
  have htarget : (Target.parse "Service/Method").toOption = some ⟨"Service", "Method"⟩ := by
    decide +kernel
  exact toOption_eq_some_iff.1 htarget

theorem resolve_undeclared (authority : Option String) :
    Schema.resolve emptySet (undeclared authority).target (undeclared authority).schema =
      .error (.symbolNotFound "Service") := by
  rw [Schema.resolve, parse_undeclared, ok_bind, undeclared, load_emptySet]
  rfl

/-- A host that cannot be reached is dialled in vain. -/
theorem connect_of_resolve_error_unreachable :
    Schema.resolve emptySet (undeclared none).target (undeclared none).schema =
        .error (.symbolNotFound "Service") ∧
      (recorded Network.down emptySet (undeclared none)).2 = [("localhost:1", {})] ∧
      ∃ reason, connect Network.down emptySet (undeclared none) =
        .error (.unreachable "localhost:1" reason) := by
  have hresolve := resolve_undeclared none
  have hfault : (undeclared none).transport.fault? (undeclared none).host = none := by
    decide +kernel
  obtain ⟨-, -, -, hlate⟩ := connect_of_resolve_error (by decide) hresolve Network.down
  obtain ⟨hdials, hfailed, -⟩ :=
    (hlate _ _ (parse_undeclared none) load_emptySet).2.2 hfault
  exact ⟨hresolve, hdials, _, hfailed _ rfl⟩

/-- A stray authority is complained of, and not that the service is not declared. -/
theorem connect_stray_authority :
    Schema.resolve emptySet (undeclared (some "a:b:c")).target (undeclared (some "a:b:c")).schema =
        .error (.symbolNotFound "Service") ∧
      ∀ network, connect network emptySet (undeclared (some "a:b:c")) =
        .error (.invalidConfig (.authority "a:b:c" "invalid authority")) := by
  refine ⟨resolve_undeclared _, fun network ↦ ?_⟩
  have hfault : (undeclared (some "a:b:c")).transport.fault? (undeclared (some "a:b:c")).host =
      some (.authority "a:b:c" "invalid authority") := by
    decide +kernel
  have hload : (undeclared (some "a:b:c")).schema.load emptySet = .ok {} := load_emptySet
  rw [connect_eq (by decide), parse_undeclared, ok_bind, hload, ok_bind, Connection.establish,
    hfault]
  rfl

end CallCheck.Session

import CallCheck.Reflection.Client

/-!
# Questions and what comes of them

A server does not change, so what a computation asks and what it comes to do not depend on what was
asked before. `Reflection.Asks` says both at once, and the lemmas on it put the questions of a
sequence together from those of its parts.
-/

namespace CallCheck.Reflection

open Call (Error Status StatusCode)
open Schema (FileDecl)

variable {α β : Type} {server : Server} {name : String} {files : List FileDecl}

/-- A computation asks these questions and comes to this result, whatever was asked before. -/
def Asks (x : Asking α) (questions : List Query) (result : Except Error α) : Prop :=
  ∀ asked, x asked = (result, asked ++ questions)

theorem bind_apply (x : Asking α) (f : α → Asking β) (asked : List Query) :
    (x >>= f) asked =
      match x asked with
      | (.ok a, asked) => f a asked
      | (.error e, asked) => (.error e, asked) := by
  change (match x asked with | (r, asked) => ExceptT.bindCont f r asked) = _
  obtain ⟨r, asked⟩ := x asked
  cases r <;> rfl

theorem asks_pure (a : α) : Asks (pure a) [] (.ok a) := by
  intro asked
  rw [List.append_nil]
  rfl

theorem asks_lift (result : Except Error α) : Asks (liftM result : Asking α) [] result := by
  intro asked
  rw [List.append_nil]
  rfl

theorem Asks.bind {x : Asking α} {f : α → Asking β} {first second : List Query} {a : α}
    {result : Except Error β} (hx : Asks x first (.ok a)) (hf : Asks (f a) second result) :
    Asks (x >>= f) (first ++ second) result := by
  intro asked
  rw [bind_apply, hx asked, ← List.append_assoc]
  exact hf _

theorem Asks.bind_error {x : Asking α} {f : α → Asking β} {questions : List Query} {e : Error}
    (hx : Asks x questions (.error e)) : Asks (x >>= f) questions (.error e) := by
  intro asked
  rw [bind_apply, hx asked]

theorem bind_apply_eq_ok {x : Asking α} {f : α → Asking β} {asked asked' : List Query} {b : β}
    (h : (x >>= f) asked = (.ok b, asked')) :
    ∃ a between, x asked = (.ok a, between) ∧ f a between = (.ok b, asked') := by
  rw [bind_apply] at h
  cases hx : x asked with
  | mk r between =>
    rw [hx] at h
    cases r with
    | error e => cases (Prod.mk.inj h).1
    | ok a => exact ⟨a, between, rfl, h⟩

/-! ## Answers -/

/-- What is made of a reply, whatever was asked. -/
def Reply.heard : Reply → Except Error Reply
  | .closed => .error (.reflection "stream closed without a response")
  | .failed status => .error (.status status)
  | .empty => .error (.reflection "empty response")
  | .error code message =>
    if code = notFound then .ok (.error code message)
    else .error (.reflection s!"{message} (code {code})")
  | reply => .ok reply

theorem asks_ask (server : Server) (q : Query) :
    Asks (ask server q) [q] (server.reply q).heard := by
  intro asked
  rw [ask, bind_apply]
  change (match server.reply q with
    | .closed => throw (Error.reflection "stream closed without a response")
    | .failed status => throw (Error.status status)
    | .empty => throw (Error.reflection "empty response")
    | .error code message =>
      if code = notFound then return .error code message
      else throw (Error.reflection s!"{message} (code {code})")
    | reply => return reply : Asking Reply) (asked ++ [q]) = _
  cases server.reply q with
  | error code message =>
    dsimp only
    by_cases hcode : code = notFound
    · rw [Reply.heard, if_pos hcode, if_pos hcode]
      rfl
    · rw [Reply.heard, if_neg hcode, if_neg hcode]
      rfl
  | _ => rfl

/-- A server answers a question with files. -/
def Serves (server : Server) (q : Query) (files : List FileDecl) : Prop :=
  ∃ encoded, server.reply q = .files encoded ∧ decodeFiles encoded = .ok files

theorem Serves.unique {q : Query} {files' : List FileDecl} (h : Serves server q files)
    (h' : Serves server q files') : files = files' := by
  obtain ⟨encoded, hreply, hdecode⟩ := h
  obtain ⟨encoded', hreply', hdecode'⟩ := h'
  rw [hreply] at hreply'
  obtain rfl := Reply.files.inj hreply'
  rw [hdecode] at hdecode'
  exact Except.ok.inj hdecode'

/-- An answer that says that there is no such thing. -/
def Reply.SaysNotFound (reply : Reply) : Prop :=
  (∃ message, reply = .error notFound message) ∨
    ∃ status : Status, reply = .failed status ∧ status.code = .notFound

theorem Serves.not_saysNotFound {q : Query} (h : Serves server q files) :
    ¬(server.reply q).SaysNotFound := by
  obtain ⟨encoded, hreply, -⟩ := h
  rintro (⟨message, hnone⟩ | ⟨status, hnone, -⟩)
  · rw [hreply] at hnone
    cases hnone
  · rw [hreply] at hnone
    cases hnone

theorem asks_askFile (h : Serves server (.file name) files) :
    Asks (askFile server name) [.file name] (.ok files) := by
  obtain ⟨encoded, hreply, hdecode⟩ := h
  intro asked
  rw [askFile, bind_apply, asks_ask, hreply]
  change (liftM (decodeFiles encoded) : Asking _) (asked ++ [.file name]) = _
  rw [hdecode]
  rfl

theorem asks_askSymbol? (h : Serves server (.symbol name) files) :
    Asks (askSymbol? server name) [.symbol name] (.ok (some files)) := by
  obtain ⟨encoded, hreply, hdecode⟩ := h
  intro asked
  rw [askSymbol?, asks_ask, hreply]
  change ((decodeFiles encoded).map some, _) = _
  rw [hdecode]
  rfl

theorem asks_askSymbol?_none (h : (server.reply (.symbol name)).SaysNotFound) :
    Asks (askSymbol? server name) [.symbol name] (.ok none) := by
  intro asked
  rw [askSymbol?, asks_ask]
  rcases h with ⟨message, hreply⟩ | ⟨status, hreply, hcode⟩
  · rw [hreply, Reply.heard, if_pos rfl]
  · rw [hreply, Reply.heard]
    dsimp only
    rw [if_pos hcode]

/-- The first symbol that a server serves decides. -/
theorem exists_asks_askFirst? {names : List String}
    (hanswers : ∀ name ∈ names, (∃ files, Serves server (.symbol name) files) ∨
      (server.reply (.symbol name)).SaysNotFound)
    (hserves : ∃ name ∈ names, ∃ files, Serves server (.symbol name) files) :
    ∃ name ∈ names, ∃ files questions, Serves server (.symbol name) files ∧
      Asks (askFirst? server names) questions (.ok (some files)) := by
  induction names with
  | nil =>
    obtain ⟨name, hname, -⟩ := hserves
    cases hname
  | cons name rest ih =>
    obtain ⟨hfirst, hrest⟩ := List.forall_mem_cons.1 hanswers
    rcases hfirst with ⟨files, hfiles⟩ | hnone
    · exact ⟨name, List.mem_cons_self, files, _, hfiles,
        (asks_askSymbol? hfiles).bind (asks_pure (some files))⟩
    · have hserves : ∃ name ∈ rest, ∃ files, Serves server (.symbol name) files := by
        obtain ⟨name', hmem, files, hfiles⟩ := hserves
        rcases List.mem_cons.1 hmem with rfl | hmem
        · exact absurd hnone (hfiles.not_saysNotFound)
        · exact ⟨name', hmem, files, hfiles⟩
      obtain ⟨name', hmem, files, questions, hfiles, hasks⟩ := ih hrest hserves
      exact ⟨name', List.mem_cons_of_mem name hmem, files, _, hfiles,
        (asks_askSymbol?_none hnone).bind hasks⟩

end CallCheck.Reflection

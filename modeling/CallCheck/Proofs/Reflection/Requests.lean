import CallCheck.Proofs.Reflection.Closure
import CallCheck.Proofs.Reflection.Sorting
import CallCheck.Proofs.Schema.Faults
import CallCheck.Reflection.Client
import Mathlib.Data.List.Induction

/-!
# What a closure under imports asks for

Files are received, processed in the order in which they were received, and stored when they have
been processed, unless a namesake is stored already. So what is stored is determined by what has
been processed: of each name the first file. A name is asked for when it is imported by the file
that is being processed and no file of that name is stored or waits. The file that is being
processed is neither, so a file that imports itself is asked for although it is there.

## The trace

`Requests` gives the names that a closure asks for, one after the other, with what they come to. It
says at each name where the closure is: which file has its turn, what has been processed before it
and what waits. The closure is shown to follow such a trace (`exists_requests`), and what it asks
for and what it comes to are read off the trace.

## Main statement

* `Reflection.complete_requests`: for every server, that a closure ends, when and how it fails, what
  it asks for, and what it comes to.
-/

namespace CallCheck.Reflection

open Call (Error)
open Schema (FileDecl LinkFault NoneMissing Pool add_eq_ok_iff linkIn_eq_ok
  noneMissing_add parts_foldl_append)

variable {server : Server} {first processed waiting received files : List FileDecl}
  {asked : List String} {name : String} {f : FileDecl} {result : Except Error (List FileDecl)}

/-! ## Of each name the first file -/

/-- Of each name the first file. -/
def firsts (files : List FileDecl) : List FileDecl :=
  files.foldl (fun stored f ↦ if holds stored f.name then stored else stored ++ [f]) []

theorem firsts_concat (files : List FileDecl) (f : FileDecl) :
    firsts (files ++ [f]) =
      if holds (firsts files) f.name then firsts files else firsts files ++ [f] := by
  rw [firsts, List.foldl_append, List.foldl_cons, List.foldl_nil]
  rfl

theorem holds_firsts (files : List FileDecl) (name : String) :
    holds (firsts files) name = holds files name := by
  induction files using List.reverseRecOn with
  | nil => rfl
  | append_singleton files f ih =>
    rw [firsts_concat, holds_append]
    by_cases hf : holds (firsts files) f.name = true
    · rw [if_pos hf, ih]
      -- What the last file holds is its own name, and that is held before it.
      by_cases hname : f.name = name
      · rw [← ih, ← hname, hf, Bool.true_or]
      · have hlast : holds [f] name = false := by
          rw [Bool.eq_false_iff]
          intro h
          obtain ⟨g, hg, rfl⟩ := holds_iff.1 h
          exact hname (congrArg FileDecl.name (List.mem_singleton.1 hg).symm)
        rw [hlast, Bool.or_false]
    · rw [if_neg hf, holds_append, ih]

theorem find?_name_eq_none_iff :
    files.find? (·.name == name) = none ↔ holds files name = false := by
  rw [List.find?_eq_none, holds, List.any_eq_false]

theorem mem_firsts_iff : f ∈ firsts files ↔ files.find? (·.name == f.name) = some f := by
  induction files using List.reverseRecOn with
  | nil =>
    constructor
    · intro h
      cases h
    · intro h
      cases h
  | append_singleton files g ih =>
    have hlast : [g].find? (·.name == f.name) = some f ↔ f = g := by
      rw [List.find?_singleton]
      constructor
      · intro h
        split at h
        · exact (Option.some.inj h).symm
        · cases h
      · rintro rfl
        rw [if_pos (beq_self_eq_true f.name)]
    rw [firsts_concat, List.find?_append, Option.or_eq_some_iff, ← ih, find?_name_eq_none_iff,
      hlast, holds_firsts]
    by_cases hheld : holds files g.name = true
    · rw [if_pos hheld, or_iff_left]
      rintro ⟨hnew, rfl⟩
      rw [hheld] at hnew
      cases hnew
    · rw [if_neg hheld, List.mem_append, List.mem_singleton]
      rw [Bool.not_eq_true] at hheld
      refine or_congr_right ⟨?_, And.right⟩
      rintro rfl
      exact ⟨hheld, rfl⟩

theorem nodup_names_firsts (files : List FileDecl) : ((firsts files).map (·.name)).Nodup := by
  induction files using List.reverseRecOn with
  | nil => exact List.nodup_nil
  | append_singleton files f ih =>
    rw [firsts_concat]
    by_cases hf : holds (firsts files) f.name = true
    · rw [if_pos hf]
      exact ih
    · rw [if_neg hf]
      exact nodup_names_concat ih (Bool.not_eq_true _ ▸ hf)

theorem firsts_subset (files : List FileDecl) : firsts files ⊆ files := by
  intro f hf
  exact List.mem_of_find?_eq_some (mem_firsts_iff.1 hf)

theorem firsts_append_of_held {held : List FileDecl}
    (hheld : ∀ g ∈ held, holds (firsts files) g.name = true) :
    firsts (files ++ held) = firsts files := by
  induction held using List.reverseRecOn with
  | nil => rw [List.append_nil]
  | append_singleton held g ih =>
    obtain ⟨hbefore, hg⟩ := List.forall_mem_append.1 hheld
    rw [← List.append_assoc, firsts_concat, ih hbefore, if_pos (hg g (List.mem_singleton_self g))]

/-! ## One request -/

/-- The files in a server's answer when it is asked for one by name. -/
def Server.filesFor (server : Server) (name : String) : Except Error (List FileDecl) :=
  (server.reply (.file name)).heard >>= fun
    | .files encoded => decodeFiles encoded
    | .error _ message => .error (.reflection s!"file `{name}` not available: {message}")
    | reply => .error (unexpected reply)

theorem asks_askFile_filesFor (server : Server) (name : String) :
    Asks (askFile server name) [.file name] (server.filesFor name) := by
  rw [askFile, Server.filesFor]
  have hask := asks_ask server (.file name)
  cases hreply : (server.reply (.file name)).heard with
  | error e =>
    rw [hreply] at hask
    exact hask.bind_error
  | ok reply =>
    rw [hreply] at hask
    cases reply with
    | _ => exact hask.bind (asks_lift _)

theorem serves_of_filesFor (h : server.filesFor name = .ok files) :
    Serves server (.file name) files := by
  obtain ⟨reply, hheard, h⟩ := bind_eq_ok_iff.1 h
  cases reply with
  | files encoded =>
    refine ⟨encoded, ?_, h⟩
    cases hreply : server.reply (.file name) with
    | error code message =>
      rw [hreply, Reply.heard] at hheard
      split at hheard
      · cases hheard
      · cases hheard
    | _ =>
      rw [hreply] at hheard
      cases hheard <;> rfl
  | _ => cases h

/-- What comes of a request for a file by name: the files in the answer, and an error if the file
that was asked for is not among them. -/
def Server.fetch (server : Server) (name : String) : Except Error (List FileDecl) :=
  server.filesFor name >>= fun fetched ↦
    if holds fetched name then .ok fetched
    else .error (.reflection s!"server did not return requested file `{name}`")

theorem fetch_eq_ok (h : server.fetch name = .ok files) :
    holds files name = true ∧ ∀ g ∈ files, g.name ∈ server.names := by
  obtain ⟨fetched, hfetched, h⟩ := bind_eq_ok_iff.1 h
  split at h
  · rename_i hheld
    obtain rfl := Except.ok.inj h
    exact ⟨hheld, fun g hg ↦ (serves_of_filesFor hfetched).mem_names hg⟩
  · cases h

section Imports

variable {stored : List FileDecl} {rest : List String}

theorem fetchImports_cons_ok {fetched : List FileDecl}
    (hheld : holds (stored ++ waiting) name = false) (hfetch : server.fetch name = .ok fetched)
    (log : List Query) :
    fetchImports server stored (name :: rest) waiting log =
      fetchImports server stored rest (waiting ++ fetched) (log ++ [.file name]) := by
  rw [fetchImports_cons hheld, bind_apply, asks_askFile_filesFor]
  obtain ⟨files, hfiles, h⟩ := bind_eq_ok_iff.1 hfetch
  rw [hfiles]
  split at h
  · rename_i hname
    obtain rfl := Except.ok.inj h
    dsimp only
    rw [if_pos hname]
  · cases h

theorem fetchImports_cons_error {e : Error} (hheld : holds (stored ++ waiting) name = false)
    (hfetch : server.fetch name = .error e) (log : List Query) :
    fetchImports server stored (name :: rest) waiting log = (.error e, log ++ [.file name]) := by
  rw [fetchImports_cons hheld, bind_apply, asks_askFile_filesFor]
  rw [Server.fetch] at hfetch
  cases hfiles : server.filesFor name with
  | error e' =>
    rw [hfiles] at hfetch
    rw [← Except.error.inj hfetch]
  | ok files =>
    rw [hfiles, ok_bind] at hfetch
    split at hfetch
    · cases hfetch
    · rename_i hname
      dsimp only
      rw [if_neg hname, ← hfetch]
      rfl

end Imports

/-! ## The trace of requests -/

/-- What is left of a closure in the middle of a round: some imports of a file, and the rounds after
it. -/
def turn (server : Server) (rounds : ℕ) (processed : List FileDecl) (f : FileDecl)
    (imports : List String) (waiting : List FileDecl) : Asking (List FileDecl) :=
  fetchImports server (firsts processed) imports waiting >>=
    close server rounds (firsts processed ++ [f])

/-- In the turn of a file a name has to be asked for: the file is not passed over, it imports the
name, and of the files that have been processed and those that wait none has that name. -/
structure Needed (processed : List FileDecl) (f : FileDecl) (waiting : List FileDecl)
    (name : String) : Prop where
  /-- The file has no namesake that was processed before. -/
  first : holds processed f.name = false
  /-- The file imports the name. -/
  imported : name ∈ f.imports
  /-- No file of the name is stored or waits. -/
  missing : holds (processed ++ waiting) name = false

/-- What a closure asks for when files have been received, and what has been received in the end. -/
inductive Requests (server : Server) : Asking (List FileDecl) → List FileDecl → List String →
    Except Error (List FileDecl) → Prop
  | done {received : List FileDecl} :
      Requests server (pure (firsts received)) received [] (.ok received)
  /-- A request that fails is the last. -/
  | refused {processed waiting : List FileDecl} {f : FileDecl} {name : String} {rest : List String}
      {rounds : ℕ} {e : Error} : Needed processed f waiting name → server.fetch name = .error e →
      Requests server (turn server rounds processed f (name :: rest) waiting)
        (processed ++ f :: waiting) [name] (.error e)
  /-- What a request brings waits behind everything else. -/
  | cons {processed waiting fetched : List FileDecl} {f : FileDecl} {name : String}
      {rest asked : List String} {rounds : ℕ} {result : Except Error (List FileDecl)} :
      Needed processed f waiting name → server.fetch name = .ok fetched →
      Requests server (turn server rounds processed f rest (waiting ++ fetched))
        (processed ++ f :: (waiting ++ fetched)) asked result →
      Requests server (turn server rounds processed f (name :: rest) waiting)
        (processed ++ f :: waiting) (name :: asked) result

theorem Needed.missing_stored (h : Needed processed f waiting name) :
    holds (firsts processed ++ waiting) name = false := by
  rw [holds_append, holds_firsts, ← holds_append]
  exact h.missing

theorem turn_cons_ok {fetched : List FileDecl} (h : Needed processed f waiting name)
    (hfetch : server.fetch name = .ok fetched) (rounds : ℕ) (rest : List String)
    (log : List Query) :
    turn server rounds processed f (name :: rest) waiting log =
      turn server rounds processed f rest (waiting ++ fetched) (log ++ [.file name]) := by
  rw [turn, bind_apply, fetchImports_cons_ok h.missing_stored hfetch, ← bind_apply]
  rfl

theorem turn_cons_error {e : Error} (h : Needed processed f waiting name)
    (hfetch : server.fetch name = .error e) (rounds : ℕ) (rest : List String)
    (log : List Query) :
    turn server rounds processed f (name :: rest) waiting log =
      (.error e, log ++ [.file name]) := by
  rw [turn, bind_apply, fetchImports_cons_error h.missing_stored hfetch]

/-- What has been received after some requests. -/
def receivedAfter (server : Server) (first : List FileDecl) (asked : List String) :
    List FileDecl :=
  first ++ asked.flatMap fun name ↦ (server.fetch name).toOption.getD []

theorem receivedAfter_nil (server : Server) (first : List FileDecl) :
    receivedAfter server first [] = first := by
  rw [receivedAfter, List.flatMap_nil, List.append_nil]

theorem receivedAfter_cons {fetched : List FileDecl} (hfetch : server.fetch name = .ok fetched) :
    receivedAfter server (processed ++ f :: waiting) (name :: asked) =
      receivedAfter server (processed ++ f :: (waiting ++ fetched)) asked := by
  rw [receivedAfter, receivedAfter, List.flatMap_cons, hfetch, ← List.append_assoc]
  exact congrArg (· ++ _) (List.append_assoc processed (f :: waiting) fetched)

theorem receivedAfter_subset {before : List String} (h : before <+: asked) :
    receivedAfter server first before ⊆ receivedAfter server first asked := by
  obtain ⟨after, rfl⟩ := h
  rw [receivedAfter, receivedAfter, List.flatMap_append, ← List.append_assoc]
  exact List.subset_append_left _ _

/-- After some requests a closure goes on by asking for a name. What has been received is what has
been processed, the file that has its turn and what waits; stored are the first files of what has
been processed. -/
def AsksNext (server : Server) (x : Asking (List FileDecl)) (first : List FileDecl)
    (before : List String) (name : String) : Prop :=
  ∃ rounds processed f rest waiting, receivedAfter server first before = processed ++ f :: waiting ∧
    Needed processed f waiting name ∧
    ∀ log, x log = turn server rounds processed f (name :: rest) waiting
      (log ++ before.map .file)

namespace Requests

variable {x : Asking (List FileDecl)}

/-- A closure asks for the names of its trace and comes to the first files of what has been
received. -/
theorem asks (h : Requests server x received asked result) :
    Asks x (asked.map .file) (result.map firsts) := by
  induction h with
  | @done received => exact asks_pure (firsts received)
  | refused hneeded hfetch => exact turn_cons_error hneeded hfetch _ _
  | cons hneeded hfetch _ ih =>
    intro log
    rw [turn_cons_ok hneeded hfetch, ih, List.append_assoc]
    rfl

theorem eq_receivedAfter (h : Requests server x first asked (.ok files)) :
    files = receivedAfter server first asked := by
  generalize hfiles : (Except.ok files : Except Error (List FileDecl)) = r at h
  induction h with
  | done =>
    rw [receivedAfter_nil]
    exact Except.ok.inj hfiles
  | refused => cases hfiles
  | cons _ hfetch _ ih =>
    rw [receivedAfter_cons hfetch]
    exact ih hfiles

/-- A trace fails exactly as one of its requests does. -/
theorem result_eq_error_iff {e : Error} (h : Requests server x first asked result) :
    result = .error e ↔ ∃ name ∈ asked, server.fetch name = .error e := by
  induction h with
  | done =>
    apply iff_of_false
    · intro h
      cases h
    · rintro ⟨name, hname, -⟩
      cases hname
  | @refused _ _ _ name _ _ _ _ hfetch =>
    constructor
    · intro h
      exact ⟨name, List.mem_singleton_self name, hfetch.trans (congrArg _ (Except.error.inj h))⟩
    · rintro ⟨name', hname', herror⟩
      obtain rfl := List.mem_singleton.1 hname'
      exact congrArg Except.error (Except.error.inj (hfetch.symm.trans herror))
  | @cons _ _ _ _ name _ _ _ _ _ hfetch _ ih =>
    have hnot : server.fetch name ≠ .error e := by
      rw [hfetch]
      intro h
      cases h
    rw [ih, List.exists_mem_cons_iff, or_iff_right hnot]

theorem asksNext (h : Requests server x first asked result) {before after : List String}
    (hsplit : asked = before ++ name :: after) : AsksNext server x first before name := by
  induction h generalizing before with
  | done => simp at hsplit
  | @refused processed waiting f _ rest rounds _ hneeded _ =>
    rcases before with _ | ⟨name', before⟩
    · obtain ⟨rfl, -⟩ := List.cons.inj hsplit
      refine ⟨rounds, processed, f, rest, waiting, receivedAfter_nil server _, hneeded, ?_⟩
      intro log
      rw [List.map_nil, List.append_nil]
    · simp at hsplit
  | @cons processed waiting _ f _ rest _ rounds _ hneeded hfetch _ ih =>
    rcases before with _ | ⟨name', before⟩
    · obtain ⟨rfl, -⟩ := List.cons.inj hsplit
      refine ⟨rounds, processed, f, rest, waiting, receivedAfter_nil server _, hneeded, ?_⟩
      intro log
      rw [List.map_nil, List.append_nil]
    · rw [List.cons_append] at hsplit
      obtain ⟨rfl, hafter⟩ := List.cons.inj hsplit
      obtain ⟨rounds', processed', f', rest', waiting', hreceived, hneeded', hrun⟩ := ih hafter
      refine ⟨rounds', processed', f', rest', waiting', ?_, hneeded', fun log ↦ ?_⟩
      · rw [receivedAfter_cons hfetch]
        exact hreceived
      · rw [turn_cons_ok hneeded hfetch, hrun, List.append_assoc]
        rfl

/-- If fewer files of a name have been received than a bound whenever it is asked for, then it is
asked for no more often than files of it can be received before the bound is reached. -/
theorem count_le (h : Requests server x first asked result) {bound : ℕ}
    (hbound : ∀ before after, asked = before ++ name :: after →
      (receivedAfter server first before).countP (·.name == name) < bound) :
    asked.count name ≤ bound - first.countP (·.name == name) := by
  induction h with
  | done => exact Nat.zero_le _
  | @refused _ _ _ name' =>
    by_cases hname : name' = name
    · have hless := hbound [] [] (congrArg (· :: []) hname)
      rw [receivedAfter_nil] at hless
      rw [hname, List.count_singleton_self]
      exact Nat.sub_pos_of_lt hless
    · rw [List.count_singleton, if_neg (by simpa using hname)]
      exact Nat.zero_le _
  | @cons processed waiting fetched f name' _ asked _ _ _ hfetch _ ih =>
    have hrest := ih fun before after hsplit ↦ by
      have hless := hbound (name' :: before) after (congrArg (name' :: ·) hsplit)
      rw [receivedAfter_cons hfetch] at hless
      exact hless
    have hcount : (processed ++ f :: (waiting ++ fetched)).countP (·.name == name) =
        (processed ++ f :: waiting).countP (·.name == name) +
          fetched.countP (·.name == name) := by
      rw [← List.countP_append, List.append_assoc]
      rfl
    rw [hcount] at hrest
    by_cases hname : name' = name
    · subst hname
      have hless := hbound [] asked rfl
      rw [receivedAfter_nil] at hless
      -- The request itself brings a file of the name.
      have hmore : 0 < fetched.countP (·.name == name') :=
        List.countP_pos_iff.2 (List.any_eq_true.1 (fetch_eq_ok hfetch).1)
      rw [List.count_cons_self]
      omega
    · rw [List.count_cons_of_ne hname]
      omega

end Requests

theorem countP_eq_zero_of_holds (h : holds files name = false) :
    files.countP (·.name == name) = 0 := by
  rw [holds, List.any_eq_false] at h
  exact List.countP_eq_zero.2 h

theorem Needed.countP_eq (h : Needed processed f waiting name) :
    (processed ++ f :: waiting).countP (·.name == name) = if f.name == name then 1 else 0 := by
  have hothers := countP_eq_zero_of_holds h.missing
  rw [List.countP_append] at hothers
  rw [List.countP_append, List.countP_cons]
  omega

section AsksNext

variable {x : Asking (List FileDecl)} {before : List String}

/-- When a name is asked for, no file of it has been received, except that which is being
processed. -/
theorem AsksNext.countP_lt_two (h : AsksNext server x first before name) :
    (receivedAfter server first before).countP (·.name == name) < 2 := by
  obtain ⟨rounds, processed, f, rest, waiting, hreceived, hneeded, -⟩ := h
  rw [hreceived, hneeded.countP_eq]
  split
  · exact Nat.one_lt_two
  · exact Nat.two_pos

/-- When a name is asked for of which no file imports itself, no file of it has been
received. -/
theorem AsksNext.countP_eq_zero (h : AsksNext server x first before name)
    (hself : ∀ f ∈ receivedAfter server first before, f.name = name → name ∉ f.imports) :
    (receivedAfter server first before).countP (·.name == name) = 0 := by
  obtain ⟨rounds, processed, f, rest, waiting, hreceived, hneeded, -⟩ := h
  rw [hreceived] at hself ⊢
  rw [hneeded.countP_eq, if_neg]
  intro hname
  exact hself f (List.mem_append_right _ List.mem_cons_self) (beq_iff_eq.1 hname) hneeded.imported

end AsksNext

/-! ## The closure follows the trace -/

/-- The imports of the file that is being processed are asked for as they are needed, and the rounds
after it follow. -/
theorem exists_requests_turn {names : List String} (hnames : server.names ⊆ names) {rounds : ℕ}
    (hfirst : holds processed f.name = false) {imports : List String}
    (himports : imports ⊆ f.imports) (hbound : ∀ g ∈ processed ++ f :: waiting, g.name ∈ names)
    (hclose : ∀ waiting, (∀ g ∈ processed ++ f :: waiting, g.name ∈ names) →
      ∃ asked result, ∀ more ≥ rounds, Requests server
        (close server more (firsts processed ++ [f]) waiting) (processed ++ f :: waiting)
        asked result) :
    ∃ asked result, ∀ more ≥ rounds, Requests server
      (turn server more processed f imports waiting) (processed ++ f :: waiting) asked result := by
  induction imports generalizing waiting with
  | nil =>
    obtain ⟨asked, result, h⟩ := hclose waiting hbound
    refine ⟨asked, result, fun more hmore ↦ ?_⟩
    rw [turn, fetchImports, pure_bind]
    exact h more hmore
  | cons name rest ih =>
    obtain ⟨hname, hrest⟩ := List.cons_subset.1 himports
    by_cases hheld : holds (processed ++ waiting) name = true
    · obtain ⟨asked, result, h⟩ := ih hrest hbound
      refine ⟨asked, result, fun more hmore ↦ ?_⟩
      rw [turn, fetchImports_cons_held]
      · exact h more hmore
      · rw [holds_append, holds_firsts, ← holds_append]
        exact hheld
    · have hneeded : Needed processed f waiting name := ⟨hfirst, hname, Bool.not_eq_true _ ▸ hheld⟩
      cases hfetch : server.fetch name with
      | error e => exact ⟨[name], .error e, fun more _ ↦ .refused hneeded hfetch⟩
      | ok fetched =>
        have hbound' : ∀ g ∈ processed ++ f :: (waiting ++ fetched), g.name ∈ names := by
          rw [← List.cons_append, ← List.append_assoc]
          exact List.forall_mem_append.2 ⟨hbound, fun g hg ↦ hnames ((fetch_eq_ok hfetch).2 g hg)⟩
        obtain ⟨asked, result, h⟩ := ih hrest hbound'
        exact ⟨name :: asked, result, fun more hmore ↦ .cons hneeded hfetch (h more hmore)⟩

/-- **Run lemma.** The closure follows a trace, with as many rounds as there are names of which no
file has been processed, and with any number above. -/
theorem exists_requests {names : List String} (hnames : server.names ⊆ names) {rounds : ℕ}
    (hrounds : names.length ≤ rounds + (firsts processed).length)
    (hbound : ∀ g ∈ processed ++ waiting, g.name ∈ names) :
    ∃ asked result, ∀ more ≥ rounds, Requests server
      (close server more (firsts processed) waiting) (processed ++ waiting) asked result := by
  induction rounds using Nat.strongRecOn generalizing processed waiting with
  | ind rounds ih =>
    rcases waiting_cases (firsts processed) waiting with hall | ⟨held, f, rest, rfl, hheld, hf⟩
    · refine ⟨[], .ok (processed ++ waiting), fun more _ ↦ ?_⟩
      rw [close_of_held more hall, ← firsts_append_of_held hall]
      exact .done
    -- The files that are passed over have been processed when the next one is.
    have hpassed : firsts (processed ++ held) = firsts processed := firsts_append_of_held hheld
    rw [← hpassed] at hf
    have hstored : firsts (processed ++ held ++ [f]) = firsts (processed ++ held) ++ [f] := by
      rw [firsts_concat, if_neg (Bool.eq_false_iff.1 hf)]
    rw [← List.append_assoc] at hbound ⊢
    -- No more names are stored than there are, so there is a round for this file.
    have hlength : (firsts (processed ++ held ++ [f])).length ≤ names.length := by
      have hsub : (firsts (processed ++ held ++ [f])).map (·.name) ⊆ names := by
        intro n hn
        obtain ⟨g, hg, rfl⟩ := List.mem_map.1 hn
        refine hbound g (append_subset_append_left ?_ (firsts_subset _ hg))
        exact List.cons_subset_cons f (List.nil_subset rest)
      have hle := (nodup_names_firsts (processed ++ held ++ [f])).length_le_of_subset hsub
      rw [List.length_map] at hle
      exact hle
    rw [hstored, hpassed, List.length_append, List.length_singleton] at hlength
    obtain ⟨rounds, rfl⟩ : ∃ fewer, rounds = fewer + 1 := Nat.exists_eq_add_one.2 (by omega)
    have hnext : ∀ waiting, (∀ g ∈ processed ++ held ++ f :: waiting, g.name ∈ names) →
        ∃ asked result, ∀ more ≥ rounds, Requests server
          (close server more (firsts (processed ++ held) ++ [f]) waiting)
          (processed ++ held ++ f :: waiting) asked result := by
      intro waiting hwaiting
      rw [← hstored, List.append_cons _ f waiting]
      rw [List.append_cons] at hwaiting
      refine ih rounds (Nat.lt_succ_self rounds) ?_ hwaiting
      rw [hstored, hpassed, List.length_append, List.length_singleton]
      omega
    have hnew : holds (processed ++ held) f.name = false := by
      rw [← holds_firsts]
      exact hf
    obtain ⟨asked, result, h⟩ :=
      exists_requests_turn hnames hnew (List.Subset.refl f.imports) hbound hnext
    refine ⟨asked, result, fun more hmore ↦ ?_⟩
    obtain ⟨more, rfl⟩ := Nat.exists_eq_add_one.2 (Nat.zero_lt_of_lt hmore)
    rw [hpassed] at hf
    rw [close_succ more hheld hf, ← hpassed]
    exact h more (Nat.le_of_succ_le_succ hmore)

/-! ## Linking what has come of a closure -/

theorem addFile_eq_error {P : Pool} {e : Error} (h : addFile P f = .error e) :
    ∃ fault, P.add [f] = .error fault ∧
      e = .schema s!"reflection file `{f.name}`" fault.message := by
  rw [addFile] at h
  cases hadd : P.add [f] with
  | ok Q =>
    rw [hadd] at h
    cases h
  | error fault =>
    rw [hadd] at h
    exact ⟨fault, rfl, (Except.error.inj h).symm⟩

theorem files_of_addFile {P Q : Pool} (h : addFile P f = .ok Q)
    (hnew : ∀ g ∈ P.files, g.name ≠ f.name) : Q.files = P.files ++ [f] := by
  have hadd : P.add [f] = .ok Q := by
    rw [addFile] at h
    cases hadd : P.add [f] with
    | error fault =>
      rw [hadd] at h
      cases h
    | ok Q' =>
      rw [hadd] at h
      exact congrArg Except.ok (Except.ok.inj h)
  obtain ⟨-, -, -, ps, hps, rfl⟩ :=
    (add_eq_ok_iff fun g hg ↦ (List.mem_singleton.1 hg).symm ▸ hnew).1 hadd
  have hfiles : ps.map Pool.files = [f].map fun g ↦ [g] :=
    map_eq_of_mapM hps fun g p hp ↦ (linkIn_eq_ok hp).1
  rw [parts_foldl_append Pool.files (fun _ _ ↦ rfl), List.flatMap_def, hfiles]
  rfl

/-- **Run lemma.** A pool to which files have been added one after the other has just these. -/
theorem files_of_foldlM_addFile {P : Pool} (h : files.foldlM addFile {} = .ok P)
    (hnodup : (files.map (·.name)).Nodup) : P.files = files := by
  induction files using List.reverseRecOn generalizing P with
  | nil =>
    obtain rfl := Except.ok.inj h
    rfl
  | append_singleton files f ih =>
    rw [List.foldlM_append] at h
    obtain ⟨Q, hQ, h⟩ := bind_eq_ok_iff.1 h
    rw [List.foldlM_cons] at h
    obtain ⟨P', hP', h⟩ := bind_eq_ok_iff.1 h
    obtain rfl := Except.ok.inj h
    rw [List.map_append, List.nodup_append] at hnodup
    have hfiles : Q.files = files := ih hQ hnodup.1
    have hnew : ∀ g ∈ Q.files, g.name ≠ f.name := by
      intro g hg
      rw [hfiles] at hg
      exact hnodup.2.2 g.name (List.mem_map_of_mem hg) f.name List.mem_cons_self
    rw [files_of_addFile hP' hnew, hfiles]

/-- Why files could not be linked, if it is not that an import is missing: files import each other
in a circle, or there is something else about one that is added to others. -/
inductive LinkError (files : List FileDecl) : Error → Prop
  | cycle {name : String} : Relation.TransGen (Imports files) name name →
      LinkError files (importCycle name)
  | fault {f : FileDecl} {P : Pool} {fault : LinkFault} : f ∈ files → P.files ⊆ files →
      P.add [f] = .error fault → (∀ file name, fault ≠ .missingImport file name) →
      LinkError files (.schema s!"reflection file `{f.name}`" fault.message)

/-- **Files that hold their imports are not refused because an import is missing.** -/
theorem linkError_of_linkFiles {e : Error} (hnodup : (files.map (·.name)).Nodup)
    (himports : ImportsIn files files) (h : linkFiles files = .error e) : LinkError files e := by
  rw [linkFiles] at h
  cases horder : dependencyOrder files with
  | error name =>
    rw [horder] at h
    rw [← Except.error.inj h]
    exact .cycle (dependencyOrder_eq_error horder)
  | ok ordered =>
    rw [horder] at h
    obtain ⟨names, rfl, hnames, hfirst, -⟩ := dependencyOrder_eq_ok horder
    obtain ⟨before, f, after, P, hsplit, hbefore, hlast⟩ := foldlM_eq_error h
    obtain ⟨fault, hadd, rfl⟩ := addFile_eq_error hlast
    have hsub : before ++ f :: after ⊆ files := hsplit ▸ filesInOrder_subset files names
    have hf : f ∈ files := hsub (List.mem_append_right _ List.mem_cons_self)
    have hordered : ((before ++ f :: after).map (·.name)).Nodup :=
      hsplit ▸ (names_filesInOrder_sublist files names).nodup hnames
    rw [List.map_append, List.nodup_append] at hordered
    have hfiles : P.files = before := files_of_foldlM_addFile hbefore hordered.1
    -- What the file imports is there, and so it stands before it and is in the pool.
    have hnone : NoneMissing (P.add [f]) := by
      refine noneMissing_add fun g hg i hi ↦ ?_
      obtain rfl := List.mem_singleton.1 hg
      obtain ⟨g', hg', rfl⟩ := holds_iff.1 (himports g hf i hi)
      refine ⟨g', List.mem_append_left _ ?_, rfl⟩
      rw [hfiles]
      exact hfirst.mem_of_filesInOrder hnodup hsplit hg' hi
    refine .fault hf ?_ hadd fun file name heq ↦ hnone file name (heq ▸ hadd)
    rw [hfiles]
    exact fun g hg ↦ hsub (List.mem_append_left _ hg)

/-! ## The closure -/

/-- **The closure under imports.** For every server and all files to begin with:

* it comes to an end, and it makes no difference to have more rounds;
* it fails exactly if one of its requests does, and with the same error;
* a name is asked for only when a file that is being processed imports it and no file of that name
  is stored or waits, so it is asked for once, or twice if a file of that name imports itself;
* when it succeeds, no name stands twice among the files, every file to begin with has a namesake
  among them, and so has every import; of each name they have the file that was received first;
* linking these files does not fail because an import is missing. -/
theorem complete_requests (server : Server) (first : List FileDecl) :
    ∃ asked outcome, Asks (complete server first) (asked.map .file) outcome ∧
      (∀ rounds ≥ server.names.length + first.length,
        close server rounds [] first = complete server first) ∧
      (∀ e, outcome = .error e ↔ ∃ name ∈ asked, server.fetch name = .error e) ∧
      (∀ before name after, asked = before ++ name :: after →
        AsksNext server (complete server first) first before name) ∧
      (∀ name, asked.count name ≤ 2 ∧
        ((∀ f ∈ receivedAfter server first asked, f.name = name → name ∉ f.imports) →
          asked.count name ≤ 1)) ∧
      ∀ files, outcome = .ok files →
        Closed [] first files ∧
          (∀ f, f ∈ files ↔
            (receivedAfter server first asked).find? (·.name == f.name) = some f) ∧
          ∀ e, linkFiles files = .error e → LinkError files e := by
  have hlength : (server.names ++ first.map (·.name)).length =
      server.names.length + first.length := by
    rw [List.length_append, List.length_map]
  have hbound : ∀ g ∈ [] ++ first, g.name ∈ server.names ++ first.map (·.name) := fun g hg ↦
    List.mem_append_right _ (List.mem_map_of_mem hg)
  obtain ⟨asked, result, hclose⟩ :=
    exists_requests (List.subset_append_left server.names _) (Nat.le_of_eq hlength) hbound
  have hrequests : Requests server (complete server first) first asked result :=
    hclose _ (Nat.le_refl _)
  have hasks := hrequests.asks
  refine ⟨asked, result.map firsts, hasks, ?_, ?_, ?_, ?_, ?_⟩
  · intro rounds hrounds
    funext log
    exact ((hclose rounds hrounds).asks log).trans (hasks log).symm
  · intro e
    rw [← hrequests.result_eq_error_iff]
    cases result with
    | ok files =>
      constructor
      · intro h
        cases h
      · intro h
        cases h
    | error e' => exact Iff.rfl
  · intro before name after hsplit
    exact hrequests.asksNext hsplit
  · intro name
    constructor
    · refine Nat.le_trans (hrequests.count_le fun before after hsplit ↦ ?_) (Nat.sub_le 2 _)
      exact (hrequests.asksNext hsplit).countP_lt_two
    · intro hself
      refine Nat.le_trans (hrequests.count_le fun before after hsplit ↦ ?_) (Nat.sub_le 1 _)
      have hbefore : before <+: asked := hsplit ▸ List.prefix_append before (name :: after)
      rw [(hrequests.asksNext hsplit).countP_eq_zero fun f hf ↦
        hself f (receivedAfter_subset hbefore hf)]
      exact Nat.one_pos
  · intro files hfiles
    obtain ⟨received, rfl, rfl⟩ := map_eq_ok_iff.1 hfiles
    have hclosed : Closed [] first (firsts received) := complete_eq_ok (hasks [])
    refine ⟨hclosed, fun f ↦ ?_, fun e ↦ linkError_of_linkFiles hclosed.nodup hclosed.imports⟩
    rw [← hrequests.eq_receivedAfter]
    exact mem_firsts_iff

/-- A file that imports itself and another one is asked for although it is there. -/
example :
    let f := importing "a" ["a", "b", "a"]
    complete (.ofFiles [f, importing "b" []]) [f] [] =
      (.ok [f, importing "b" []], [.file "a", .file "b"]) :=
  Prod.ext (by decide +kernel) (by decide +kernel)

end CallCheck.Reflection

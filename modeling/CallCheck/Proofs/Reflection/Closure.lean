import CallCheck.Proofs.Except
import CallCheck.Proofs.Reflection.Asking

/-!
# What closing under imports comes to

A file is stored when its imports have been asked for, so what the stored files import is stored or
waiting, and in the end it is stored. Whatever a server hands out bears one of the announced names,
and no name is stored twice, so the rounds suffice.

## Main statements

* `Reflection.complete_eq_ok`: what comes of a closure that succeeds, whatever the server.
* `Reflection.exists_asks_complete`: with a server that hands out the files of a closed collection,
  and no others, the closure succeeds.
-/

namespace CallCheck.Reflection

open Call (Error)
open Schema (FileDecl)

variable {server : Server} {files stored waiting collection : List FileDecl} {name : String}
  {asked asked' : List Query}

/-! ## Names of files -/

theorem holds_iff : holds files name = true ↔ ∃ f ∈ files, f.name = name := by
  rw [holds, List.any_eq_true]
  constructor
  · rintro ⟨f, hf, heq⟩
    exact ⟨f, hf, beq_iff_eq.1 heq⟩
  · rintro ⟨f, hf, heq⟩
    exact ⟨f, hf, beq_iff_eq.2 heq⟩

theorem holds_of_mem {f : FileDecl} (hf : f ∈ files) : holds files f.name = true :=
  holds_iff.2 ⟨f, hf, rfl⟩

theorem holds_of_subset {more : List FileDecl} (h : files ⊆ more)
    (hname : holds files name = true) : holds more name = true := by
  obtain ⟨f, hf, heq⟩ := holds_iff.1 hname
  exact holds_iff.2 ⟨f, h hf, heq⟩

theorem holds_append (files more : List FileDecl) (name : String) :
    holds (files ++ more) name = (holds files name || holds more name) := List.any_append

theorem append_subset_append_left {rest more : List FileDecl} (h : rest ⊆ more) :
    files ++ rest ⊆ files ++ more :=
  List.append_subset.2 ⟨List.subset_append_left _ _, fun _ hf ↦ List.mem_append_right _ (h hf)⟩

/-- Whatever files import is among others. -/
def ImportsIn (files others : List FileDecl) : Prop :=
  ∀ f ∈ files, ∀ i ∈ f.imports, holds others i = true

/-! ## Files that a server hands out -/

theorem Serves.mem_names {q : Query} (h : Serves server q files) {f : FileDecl} (hf : f ∈ files) :
    f.name ∈ server.names := by
  obtain ⟨encoded, hreply, hdecode⟩ := h
  obtain ⟨bytes, hbytes, hf⟩ := exists_of_mem_mapM hdecode hf
  refine server.mem_names q f.name ?_
  rw [hreply]
  refine List.mem_filterMap.2 ⟨bytes, hbytes, ?_⟩
  cases hof : FileDecl.ofBytes? bytes with
  | none =>
    rw [hof] at hf
    cases hf
  | some g =>
    rw [hof] at hf
    rw [Except.ok.inj hf]
    rfl

/-- A server hands out each file of a collection when it is asked for its name, and with it no file
that is not of the collection. -/
def HandsOut (server : Server) (collection : List FileDecl) : Prop :=
  ∀ f ∈ collection, ∃ files, Serves server (.file f.name) files ∧ files ⊆ collection ∧ f ∈ files

/-! ## The imports of one file -/

theorem fetchImports_cons_held {rest : List String}
    (h : holds (stored ++ waiting) name = true) :
    fetchImports server stored (name :: rest) waiting =
      fetchImports server stored rest waiting := by
  rw [holds_append] at h
  rw [fetchImports, if_pos h]

theorem fetchImports_cons {rest : List String} (h : holds (stored ++ waiting) name = false) :
    fetchImports server stored (name :: rest) waiting = askFile server name >>= fun fetched ↦
      if holds fetched name then fetchImports server stored rest (waiting ++ fetched)
      else throw (.reflection s!"server did not return requested file `{name}`") := by
  rw [holds_append] at h
  rw [fetchImports, h, if_neg Bool.false_ne_true]

/-- Files are added to those that wait until all imports are among them. -/
theorem fetchImports_eq_ok {imports : List String} {waiting' : List FileDecl}
    (h : fetchImports server stored imports waiting asked = (.ok waiting', asked')) :
    waiting ⊆ waiting' ∧ ∀ i ∈ imports, holds (stored ++ waiting') i = true := by
  induction imports generalizing waiting asked with
  | nil =>
    obtain rfl := Except.ok.inj (Prod.mk.inj h).1
    exact ⟨List.Subset.refl _, List.forall_mem_nil _⟩
  | cons name rest ih =>
    cases hheld : holds (stored ++ waiting) name with
    | true =>
      rw [fetchImports_cons_held hheld] at h
      obtain ⟨hsub, hrest⟩ := ih h
      exact ⟨hsub, List.forall_mem_cons.2
        ⟨holds_of_subset (append_subset_append_left hsub) hheld, hrest⟩⟩
    | false =>
      rw [fetchImports_cons hheld] at h
      obtain ⟨fetched, between, -, h⟩ := bind_apply_eq_ok h
      split at h
      · rename_i hfetched
        obtain ⟨hsub, hrest⟩ := ih h
        have hmore : fetched ⊆ stored ++ waiting' := fun f hf ↦
          List.mem_append_right _ (hsub (List.mem_append_right _ hf))
        exact ⟨fun f hf ↦ hsub (List.mem_append_left _ hf),
          List.forall_mem_cons.2 ⟨holds_of_subset hmore hfetched, hrest⟩⟩
      · cases (Prod.mk.inj h).1

theorem exists_asks_fetchImports (stored : List FileDecl) (hserver : HandsOut server collection)
    {imports : List String} (himports : ∀ i ∈ imports, holds collection i = true)
    (waiting : List FileDecl) :
    ∃ questions more, more ⊆ collection ∧ (∀ f ∈ more, f.name ∈ server.names) ∧
      Asks (fetchImports server stored imports waiting) questions (.ok (waiting ++ more)) := by
  induction imports generalizing waiting with
  | nil =>
    refine ⟨[], [], List.nil_subset _, List.forall_mem_nil _, ?_⟩
    rw [List.append_nil]
    exact asks_pure waiting
  | cons name rest ih =>
    obtain ⟨hname, hrest⟩ := List.forall_mem_cons.1 himports
    cases hheld : holds (stored ++ waiting) name with
    | true =>
      rw [fetchImports_cons_held hheld]
      exact ih hrest waiting
    | false =>
      obtain ⟨f, hf, rfl⟩ := holds_iff.1 hname
      obtain ⟨fetched, hserves, hsub, hmem⟩ := hserver f hf
      obtain ⟨questions, more, hmore, hnames, hasks⟩ := ih hrest (waiting ++ fetched)
      rw [fetchImports_cons hheld]
      refine ⟨.file f.name :: questions, fetched ++ more, List.append_subset.2 ⟨hsub, hmore⟩,
        List.forall_mem_append.2 ⟨fun g ↦ hserves.mem_names, hnames⟩,
        (asks_askFile hserves).bind ?_⟩
      rw [if_pos (holds_of_mem hmem), ← List.append_assoc]
      exact hasks

/-! ## Rounds -/

/-- Either all that waits is stored already, or the next round is that of the first that is not. -/
theorem waiting_cases (stored waiting : List FileDecl) :
    (∀ g ∈ waiting, holds stored g.name = true) ∨
      ∃ held f rest, waiting = held ++ f :: rest ∧ (∀ g ∈ held, holds stored g.name = true) ∧
        holds stored f.name = false := by
  induction waiting with
  | nil => exact .inl (List.forall_mem_nil _)
  | cons g waiting ih =>
    cases hg : holds stored g.name with
    | false => exact .inr ⟨[], g, waiting, rfl, List.forall_mem_nil _, hg⟩
    | true =>
      rcases ih with hall | ⟨held, f, rest, rfl, hheld, hf⟩
      · exact .inl (List.forall_mem_cons.2 ⟨hg, hall⟩)
      · exact .inr ⟨g :: held, f, rest, rfl, List.forall_mem_cons.2 ⟨hg, hheld⟩, hf⟩

theorem close_of_held (rounds : Nat) (h : ∀ g ∈ waiting, holds stored g.name = true) :
    close server rounds stored waiting = pure stored := by
  have hdrop : (waiting.dropWhile fun f ↦ holds stored f.name) = [] := by
    rw [← List.append_nil waiting, List.dropWhile_append_of_pos h, List.dropWhile_nil]
  rw [close.eq_def]
  dsimp only
  rw [hdrop]

section Round

variable {held rest : List FileDecl} {f : FileDecl}

theorem dropWhile_held (hheld : ∀ g ∈ held, holds stored g.name = true)
    (hf : holds stored f.name = false) :
    (held ++ f :: rest).dropWhile (fun f ↦ holds stored f.name) = f :: rest := by
  rw [List.dropWhile_append_of_pos hheld, List.dropWhile_cons_of_neg]
  rw [hf]
  exact Bool.false_ne_true

theorem close_zero (hheld : ∀ g ∈ held, holds stored g.name = true)
    (hf : holds stored f.name = false) :
    close server 0 stored (held ++ f :: rest) =
      throw (.reflection "the files have more names than announced") := by
  rw [close.eq_def]
  dsimp only
  rw [dropWhile_held hheld hf]

theorem close_succ (rounds : Nat) (hheld : ∀ g ∈ held, holds stored g.name = true)
    (hf : holds stored f.name = false) :
    close server (rounds + 1) stored (held ++ f :: rest) =
      fetchImports server stored f.imports rest >>= close server rounds (stored ++ [f]) := by
  rw [close.eq_def]
  dsimp only
  rw [dropWhile_held hheld hf]

end Round

theorem holds_of_held (hheld : ∀ g ∈ waiting, holds stored g.name = true)
    (h : holds (stored ++ waiting) name = true) : holds stored name = true := by
  rw [holds_append, Bool.or_eq_true] at h
  rcases h with h | h
  · exact h
  · obtain ⟨g, hg, rfl⟩ := holds_iff.1 h
    exact hheld g hg

theorem nodup_names_concat {f : FileDecl} (hnodup : (stored.map (·.name)).Nodup)
    (hf : holds stored f.name = false) : ((stored ++ [f]).map (·.name)).Nodup := by
  rw [List.map_append, List.map_singleton, List.nodup_append]
  refine ⟨hnodup, List.pairwise_singleton _ _, ?_⟩
  intro n hn m hm heq
  obtain ⟨g, hg, rfl⟩ := List.mem_map.1 hn
  have hholds : holds stored f.name = true :=
    holds_iff.2 ⟨g, hg, heq.trans (List.mem_singleton.1 hm)⟩
  rw [hf] at hholds
  cases hholds

section Step

variable {held rest waiting' : List FileDecl} {f : FileDecl}

theorem holds_round (hheld : ∀ g ∈ held, holds stored g.name = true) (hrest : rest ⊆ waiting')
    (h : holds (stored ++ (held ++ f :: rest)) name = true) :
    holds (stored ++ [f] ++ waiting') name = true := by
  obtain ⟨g, hg, rfl⟩ := holds_iff.1 h
  have hstored : stored ⊆ stored ++ [f] ++ waiting' := fun g hg ↦
    List.mem_append_left _ (List.mem_append_left _ hg)
  rcases List.mem_append.1 hg with hg | hg
  · exact holds_of_mem (hstored hg)
  rcases List.mem_append.1 hg with hg | hg
  · exact holds_of_subset hstored (hheld g hg)
  rcases List.mem_cons.1 hg with rfl | hg
  · exact holds_of_mem (List.mem_append_left _ List.mem_concat_self)
  · exact holds_of_mem (List.mem_append_right _ (hrest hg))

theorem mem_of_mem_stored_concat {g : FileDecl} (hg : g ∈ stored ++ [f]) :
    g ∈ stored ++ (held ++ f :: rest) := by
  rcases List.mem_append.1 hg with hg | hg
  · exact List.mem_append_left _ hg
  · obtain rfl := List.mem_singleton.1 hg
    exact List.mem_append_right _ (List.mem_append_right _ List.mem_cons_self)

/-- **Step lemma.** A round keeps the imports of stored files among those that are stored or
wait. -/
theorem ImportsIn.round (himports : ImportsIn stored (stored ++ (held ++ f :: rest)))
    (hheld : ∀ g ∈ held, holds stored g.name = true) (hrest : rest ⊆ waiting')
    (hf : ∀ i ∈ f.imports, holds (stored ++ waiting') i = true) :
    ImportsIn (stored ++ [f]) (stored ++ [f] ++ waiting') := by
  have hsub : stored ++ waiting' ⊆ stored ++ [f] ++ waiting' := by
    rw [List.append_assoc]
    exact append_subset_append_left (List.subset_append_right _ _)
  intro g hg i hi
  rcases List.mem_append.1 hg with hg | hg
  · exact holds_round hheld hrest (himports g hg i hi)
  · obtain rfl := List.mem_singleton.1 hg
    exact holds_of_subset hsub (hf i hi)

end Step

/-- What has come of a closure: a file of each name that was stored or waited, no name twice, and
whatever the files import. -/
structure Closed (stored waiting files : List FileDecl) : Prop where
  /-- No name stands twice. -/
  nodup : (files.map (·.name)).Nodup
  /-- The imports of every file are there. -/
  imports : ImportsIn files files
  /-- What was stored is there. -/
  stored : stored ⊆ files
  /-- A namesake of each file that waited is there. -/
  waiting : ∀ g ∈ waiting, holds files g.name = true

theorem closed_of_held (hheld : ∀ g ∈ waiting, holds stored g.name = true)
    (hnodup : (stored.map (·.name)).Nodup) (himports : ImportsIn stored (stored ++ waiting)) :
    Closed stored waiting stored :=
  ⟨hnodup, fun f hf i hi ↦ holds_of_held hheld (himports f hf i hi), List.Subset.refl _, hheld⟩

/-- **Run lemma.** A closure that succeeds, whatever the server, is one. -/
theorem close_eq_ok {rounds : Nat}
    (h : close server rounds stored waiting asked = (.ok files, asked'))
    (hnodup : (stored.map (·.name)).Nodup) (himports : ImportsIn stored (stored ++ waiting)) :
    Closed stored waiting files := by
  induction rounds generalizing stored waiting asked with
  | zero =>
    rcases waiting_cases stored waiting with hall | ⟨held, f, rest, rfl, hheld, hf⟩
    · rw [close_of_held 0 hall] at h
      obtain rfl := Except.ok.inj (Prod.mk.inj h).1
      exact closed_of_held hall hnodup himports
    · rw [close_zero hheld hf] at h
      cases (Prod.mk.inj h).1
  | succ rounds ih =>
    rcases waiting_cases stored waiting with hall | ⟨held, f, rest, rfl, hheld, hf⟩
    · rw [close_of_held _ hall] at h
      obtain rfl := Except.ok.inj (Prod.mk.inj h).1
      exact closed_of_held hall hnodup himports
    · rw [close_succ rounds hheld hf] at h
      obtain ⟨waiting', between, hfetch, hclose⟩ := bind_apply_eq_ok h
      obtain ⟨hrest, hfetched⟩ := fetchImports_eq_ok hfetch
      have hclosed := ih hclose (nodup_names_concat hnodup hf)
        (himports.round hheld hrest hfetched)
      have hnames : ∀ n, holds (stored ++ [f] ++ waiting') n = true → holds files n = true := by
        intro n hn
        obtain ⟨g, hg, rfl⟩ := holds_iff.1 hn
        rcases List.mem_append.1 hg with hg | hg
        · exact holds_of_mem (hclosed.stored hg)
        · exact hclosed.waiting g hg
      exact ⟨hclosed.nodup, hclosed.imports, fun g hg ↦
        hclosed.stored (List.mem_append_left _ hg), fun g hg ↦ hnames g.name
          (holds_round hheld hrest (holds_of_mem (List.mem_append_right _ hg)))⟩

/-- **What comes of asking for imports**: a file of each name that was there at first, no name
twice, and a file for each import. -/
theorem complete_eq_ok {first : List FileDecl}
    (h : complete server first asked = (.ok files, asked')) : Closed [] first files :=
  close_eq_ok h List.nodup_nil (List.forall_mem_nil _)

/-! ## Rounds that suffice -/

/-- **Run lemma.** With a server that hands out a collection that holds its own imports, the closure
of files of the collection comes to an end: no more names are stored than are announced. -/
theorem exists_asks_close (hserver : HandsOut server collection)
    (hcollection : ImportsIn collection collection) {names : List String}
    (hnames : server.names ⊆ names) {rounds : Nat} (hrounds : names.length ≤ rounds + stored.length)
    (hnodup : (stored.map (·.name)).Nodup) (hstored : stored ⊆ collection)
    (hwaiting : waiting ⊆ collection) (hbound : ∀ f ∈ stored ++ waiting, f.name ∈ names) :
    ∃ questions files, files ⊆ collection ∧
      Asks (close server rounds stored waiting) questions (.ok files) := by
  induction rounds generalizing stored waiting with
  | zero =>
    rcases waiting_cases stored waiting with hall | ⟨held, f, rest, rfl, hheld, hf⟩
    · rw [close_of_held 0 hall]
      exact ⟨[], stored, hstored, asks_pure stored⟩
    · -- One more name would be stored than there are.
      have hsub : (stored ++ [f]).map (·.name) ⊆ names := by
        intro n hn
        obtain ⟨g, hg, rfl⟩ := List.mem_map.1 hn
        exact hbound g (mem_of_mem_stored_concat hg)
      have hlength := (nodup_names_concat hnodup hf).length_le_of_subset hsub
      rw [List.length_map, List.length_append, List.length_singleton] at hlength
      omega
  | succ rounds ih =>
    rcases waiting_cases stored waiting with hall | ⟨held, f, rest, rfl, hheld, hf⟩
    · rw [close_of_held _ hall]
      exact ⟨[], stored, hstored, asks_pure stored⟩
    · have hfile : f ∈ collection := hwaiting (List.mem_append_right _ List.mem_cons_self)
      obtain ⟨questions, more, hmore, hfetched, hasks⟩ :=
        exists_asks_fetchImports stored hserver (hcollection f hfile) rest
      -- One more name is stored and one round fewer is left, and nothing from elsewhere waits.
      have hstored' : stored ++ [f] ⊆ collection := fun g hg ↦ by
        rcases List.mem_append.1 (mem_of_mem_stored_concat hg) with hg | hg
        · exact hstored hg
        · exact hwaiting hg
      have hwaiting' : rest ++ more ⊆ collection := List.append_subset.2
        ⟨fun g hg ↦ hwaiting (List.mem_append_right _ (List.mem_cons_of_mem f hg)), hmore⟩
      have hbound' : ∀ g ∈ stored ++ [f] ++ (rest ++ more), g.name ∈ names := by
        refine List.forall_mem_append.2 ⟨fun g hg ↦ hbound g (mem_of_mem_stored_concat hg),
          List.forall_mem_append.2 ⟨fun g hg ↦ hbound g ?_, fun g hg ↦ hnames (hfetched g hg)⟩⟩
        exact List.mem_append_right _ (List.mem_append_right _ (List.mem_cons_of_mem f hg))
      have hrounds' : names.length ≤ rounds + (stored ++ [f]).length := by
        rw [List.length_append, List.length_singleton]
        omega
      obtain ⟨later, files, hfiles, hclose⟩ :=
        ih hrounds' (nodup_names_concat hnodup hf) hstored' hwaiting' hbound'
      rw [close_succ rounds hheld hf]
      exact ⟨questions ++ later, files, hfiles, hasks.bind hclose⟩

/-- **A server that hands out a collection that holds its own imports completes files of it.** -/
theorem exists_asks_complete (hserver : HandsOut server collection)
    (hcollection : ImportsIn collection collection) {first : List FileDecl}
    (hfirst : first ⊆ collection) :
    ∃ questions files, files ⊆ collection ∧
      Asks (complete server first) questions (.ok files) := by
  have hbound : ∀ f ∈ [] ++ first, f.name ∈ server.names ++ first.map (·.name) := fun f hf ↦
    List.mem_append_right _ (List.mem_map_of_mem hf)
  have hrounds : (server.names ++ first.map (·.name)).length ≤
      server.names.length + first.length + ([] : List FileDecl).length := by
    rw [List.length_append, List.length_map]
    exact Nat.le_refl _
  exact exists_asks_close hserver hcollection (List.subset_append_left _ _) hrounds List.nodup_nil
    (List.nil_subset _) hfirst hbound

end CallCheck.Reflection

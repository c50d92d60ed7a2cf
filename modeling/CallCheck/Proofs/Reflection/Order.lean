import CallCheck.Proofs.Except
import CallCheck.Proofs.Schema.Visible
import CallCheck.Reflection.Order
import Mathlib.Logic.Relation

/-!
# What the dependency order is

A walk puts names down one after the other and takes none back, and a name is put down when all that
its file imports has been. So the names that have been put down are always in order, whatever is
being visited.

## Main statements

* `Reflection.dependencyOrder_eq_ok`: the order has every file, and each after those it imports.
* `Reflection.dependencyOrder_eq_error`: a file that is named as the cause of a failure imports
  itself in a roundabout way.
* `Reflection.not_transGen_of_dependencyOrder`: if there is an order, no file does.
-/

namespace CallCheck.Reflection

open Schema (FileDecl SelfContained)

variable {files : List FileDecl} {visiting names done result : List String} {name : String}

theorem name_of_find? {f : FileDecl} (h : files.find? (·.name == name) = some f) :
    f.name = name := by
  have hname := List.find?_some h
  exact beq_iff_eq.1 hname

theorem find?_name {f : FileDecl} (hnodup : (files.map (·.name)).Nodup) (hf : f ∈ files) :
    files.find? (·.name == f.name) = some f := by
  cases hfind : files.find? (·.name == f.name) with
  | none => exact absurd (beq_self_eq_true f.name) (List.find?_eq_none.1 hfind f hf)
  | some g =>
    exact congrArg some
      (List.inj_on_of_nodup_map hnodup (List.mem_of_find?_eq_some hfind) hf (name_of_find? hfind))

/-- One name imports another, as the files have it. -/
def Imports (files : List FileDecl) (importer imported : String) : Prop :=
  ∃ f ∈ files, f.name = importer ∧ imported ∈ f.imports

/-- Names in an order in which each comes after what its file imports. -/
inductive ImportsFirst (files : List FileDecl) : List String → Prop
  | nil : ImportsFirst files []
  | concat {done : List String} {name : String} : ImportsFirst files done →
      (∀ f, files.find? (·.name == name) = some f → ∀ i ∈ f.imports, i ∈ done) →
      ImportsFirst files (done ++ [name])

theorem ImportsFirst.mem_of_imports (h : ImportsFirst files names)
    (hnodup : (files.map (·.name)).Nodup) {imported : String} (hname : name ∈ names)
    (himports : Imports files name imported) : imported ∈ names := by
  induction h with
  | nil => cases hname
  | @concat done last _ hlast ih =>
    rcases List.mem_append.1 hname with hname | hname
    · exact List.mem_append_left _ (ih hname)
    · obtain rfl := List.mem_singleton.1 hname
      obtain ⟨f, hf, rfl, hi⟩ := himports
      exact List.mem_append_left _ (hlast f (find?_name hnodup hf) imported hi)

theorem ImportsFirst.mem_of_reflTransGen (h : ImportsFirst files names)
    (hnodup : (files.map (·.name)).Nodup) {imported : String} (hname : name ∈ names)
    (himports : Relation.ReflTransGen (Imports files) name imported) : imported ∈ names := by
  induction himports with
  | refl => exact hname
  | tail _ himports ih => exact h.mem_of_imports hnodup ih himports

/-- No name in order imports itself in a roundabout way: what it imports stands before it, and so
does what that imports. -/
theorem ImportsFirst.not_transGen (h : ImportsFirst files names)
    (hnodup : (files.map (·.name)).Nodup) (hnames : names.Nodup) (hname : name ∈ names) :
    ¬Relation.TransGen (Imports files) name name := by
  induction h with
  | nil => cases hname
  | @concat done last hdone hlast ih =>
    rcases List.mem_append.1 hname with hname | hname
    · exact ih (List.nodup_append.1 hnames).1 hname
    · obtain rfl := List.mem_singleton.1 hname
      intro hcycle
      obtain ⟨imported, ⟨f, hf, rfl, hi⟩, hrest⟩ := Relation.TransGen.head'_iff.1 hcycle
      have hbefore : imported ∈ done := hlast f (find?_name hnodup hf) imported hi
      have hagain : f.name ∈ done := hdone.mem_of_reflTransGen hnodup hbefore hrest
      exact (List.nodup_append.1 hnames).2.2 _ hagain _ List.mem_cons_self rfl

/-- What has come of a walk over names. -/
structure Visited (files : List FileDecl) (visiting names done result : List String) : Prop where
  /-- Nothing is taken back. -/
  before : done <+: result
  /-- The names have been put down. -/
  visited : ∀ n ∈ names, n ∈ result
  /-- No name that is being visited has been put down on the way. -/
  visiting : ∀ n ∈ visiting, n ∈ result → n ∈ done
  /-- No name is put down twice. -/
  nodup : done.Nodup → result.Nodup
  /-- The names are in order. -/
  order : ImportsFirst files done → ImportsFirst files result

theorem Visited.refl (files : List FileDecl) (visiting done : List String) :
    Visited files visiting [] done done :=
  ⟨List.prefix_refl done, List.forall_mem_nil _, fun _ _ h ↦ h, id, id⟩

/-- **Step lemma.** A name is put down after a walk over what its file imports. -/
theorem Visited.concat {imports rest between : List String}
    (himports : Visited files (name :: visiting) imports done between)
    (hfile : ∀ f, files.find? (·.name == name) = some f → f.imports = imports)
    (hname : name ∉ done) (hvisiting : name ∉ visiting)
    (hrest : Visited files visiting rest (between ++ [name]) result) :
    Visited files visiting (name :: rest) done result where
  before := himports.before.trans ((List.prefix_append _ _).trans hrest.before)
  visited := List.forall_mem_cons.2
    ⟨hrest.before.subset List.mem_concat_self, hrest.visited⟩
  visiting n hn hresult := by
    rcases List.mem_append.1 (hrest.visiting n hn hresult) with hmem | hmem
    · exact himports.visiting n (List.mem_cons_of_mem name hn) hmem
    · exact absurd (List.mem_singleton.1 hmem ▸ hn) hvisiting
  nodup hdone := by
    have hbetween : name ∉ between := fun hmem ↦
      hname (himports.visiting name List.mem_cons_self hmem)
    refine hrest.nodup (List.nodup_append.2 ⟨himports.nodup hdone, List.pairwise_singleton _ _, ?_⟩)
    intro n hn m hm heq
    exact hbetween (List.mem_singleton.1 hm ▸ heq ▸ hn)
  order hdone := hrest.order <| .concat (himports.order hdone) fun f hf i hi ↦
    himports.visited i (hfile f hf ▸ hi)

/-- **Run lemma.** What a walk that succeeds has come to. -/
theorem visit_eq_ok (h : visit files visiting names done = .ok result) :
    Visited files visiting names done result := by
  fun_induction visit files visiting names done generalizing result with
  | case1 visiting done =>
    obtain rfl := Except.ok.inj h
    exact .refl files visiting done
  | case2 visiting name rest done hname ih =>
    have hrest := ih h
    exact { hrest with
      visited := List.forall_mem_cons.2 ⟨hrest.before.subset hname, hrest.visited⟩ }
  | case3 => cases h
  | case4 visiting name rest done hname hvisiting hfind ih =>
    -- A name that no file bears imports nothing.
    refine (Visited.refl files (name :: visiting) done).concat ?_ hname hvisiting (ih h)
    intro f hf
    rw [hfind] at hf
    cases hf
  | case5 => cases h
  | case6 visiting name rest done hname hvisiting f hfind hlt between hbetween ihimports ih =>
    refine (ihimports hbetween).concat ?_ hname hvisiting (ih h)
    intro g hg
    rw [hfind] at hg
    rw [Option.some.inj hg]

/-- **Run lemma.** A walk fails only at a name that it has come from, so that name imports itself in
a roundabout way. -/
theorem visit_eq_error (h : visit files visiting names done = .error name)
    (hfrom : ∀ v ∈ visiting, ∀ n ∈ names, Relation.TransGen (Imports files) v n) :
    Relation.TransGen (Imports files) name name := by
  fun_induction visit files visiting names done with
  | case1 => cases h
  | case2 visiting n rest done hname ih =>
    exact ih h fun v hv m hm ↦ hfrom v hv m (List.mem_cons_of_mem n hm)
  | case3 visiting n rest done hname hvisiting =>
    obtain rfl := Except.error.inj h
    exact hfrom n hvisiting n List.mem_cons_self
  | case4 visiting n rest done hname hvisiting hfind ih =>
    exact ih h fun v hv m hm ↦ hfrom v hv m (List.mem_cons_of_mem n hm)
  | case5 visiting n rest done hdone hvisiting f hfind hlt cycle hcycle ihimports =>
    obtain rfl := Except.error.inj h
    -- What leads to the file leads to what it imports, and so does the file itself.
    refine ihimports hcycle fun v hv m hm ↦ ?_
    have himports : Imports files n m :=
      ⟨f, List.mem_of_find?_eq_some hfind, name_of_find? hfind, hm⟩
    rcases List.mem_cons.1 hv with rfl | hv
    · exact .single himports
    · exact (hfrom v hv n List.mem_cons_self).tail himports
  | case6 visiting n rest done hname hvisiting f hfind hlt between hbetween ihimports ih =>
    exact ih h fun v hv m hm ↦ hfrom v hv m (List.mem_cons_of_mem n hm)

/-- The files in the order of names. -/
def filesInOrder (files : List FileDecl) (names : List String) : List FileDecl :=
  names.filterMap fun name ↦ files.find? (·.name == name)

theorem filesInOrder_cons (files : List FileDecl) (name : String) (names : List String) :
    filesInOrder files (name :: names) =
      (files.find? (·.name == name)).toList ++ filesInOrder files names := by
  rw [filesInOrder, List.filterMap_cons]
  cases files.find? (·.name == name) <;> rfl

theorem filesInOrder_concat (files : List FileDecl) (done : List String) (name : String) :
    filesInOrder files (done ++ [name]) =
      filesInOrder files done ++ (files.find? (·.name == name)).toList := by
  rw [filesInOrder, List.filterMap_append]
  refine congrArg (filesInOrder files done ++ ·) ?_
  exact (filesInOrder_cons files name []).trans (List.append_nil _)

theorem filesInOrder_subset (files : List FileDecl) (names : List String) :
    filesInOrder files names ⊆ files := by
  intro f hf
  obtain ⟨name, -, hfind⟩ := List.mem_filterMap.1 hf
  exact List.mem_of_find?_eq_some hfind

theorem mem_filesInOrder {f : FileDecl} (hnodup : (files.map (·.name)).Nodup) (hf : f ∈ files)
    (hname : f.name ∈ names) : f ∈ filesInOrder files names :=
  List.mem_filterMap.2 ⟨f.name, hname, find?_name hnodup hf⟩

theorem names_filesInOrder_sublist (files : List FileDecl) (names : List String) :
    ((filesInOrder files names).map (·.name)).Sublist names := by
  induction names with
  | nil => exact .slnil
  | cons name names ih =>
    rw [filesInOrder_cons]
    cases hfind : files.find? (·.name == name) with
    | none => exact ih.cons name
    | some f =>
      rw [Option.toList_some, List.singleton_append, List.map_cons, name_of_find? hfind]
      exact ih.cons_cons name

/-- Files in order hold what they import, if all files together do. -/
theorem ImportsFirst.selfContained (h : ImportsFirst files names)
    (hnodup : (files.map (·.name)).Nodup) (hfiles : SelfContained files) :
    SelfContained (filesInOrder files names) := by
  induction h with
  | nil => exact List.forall_mem_nil _
  | @concat done name _ himports ih =>
    rw [filesInOrder_concat]
    intro f hf i hi
    rcases List.mem_append.1 hf with hf | hf
    · obtain ⟨g, hg, heq⟩ := ih f hf i hi
      exact ⟨g, List.mem_append_left _ hg, heq⟩
    · have hfind := Option.mem_toList.1 hf
      obtain ⟨g, hg, rfl⟩ := hfiles f (List.mem_of_find?_eq_some hfind) i hi
      exact ⟨g, List.mem_append_left _ (mem_filesInOrder hnodup hg (himports f hfind _ hi)), rfl⟩

/-- **Files are put into an order in which each comes after its imports, and none is lost.** -/
theorem dependencyOrder_eq_ok {ordered : List FileDecl} (h : dependencyOrder files = .ok ordered) :
    ∃ names, ordered = filesInOrder files names ∧ names.Nodup ∧ ImportsFirst files names ∧
      ∀ f ∈ files, f.name ∈ names := by
  obtain ⟨names, hvisit, rfl⟩ := map_eq_ok_iff.1 h
  have hvisited := visit_eq_ok hvisit
  refine ⟨names, rfl, hvisited.nodup List.nodup_nil, hvisited.order .nil, fun f hf ↦ ?_⟩
  exact hvisited.visited f.name (List.mem_mergeSort.2 (List.mem_map_of_mem hf))

/-- **No file of those that are put into order imports itself in a roundabout way.** -/
theorem not_transGen_of_dependencyOrder {ordered : List FileDecl}
    (h : dependencyOrder files = .ok ordered) (hnodup : (files.map (·.name)).Nodup) :
    ¬Relation.TransGen (Imports files) name name := by
  obtain ⟨names, -, hnames, horder, hall⟩ := dependencyOrder_eq_ok h
  intro hcycle
  obtain ⟨imported, ⟨f, hf, rfl, -⟩, -⟩ := Relation.TransGen.head'_iff.1 hcycle
  exact horder.not_transGen hnodup hnames (hall f hf) hcycle

/-- **Files are refused only for a name that imports itself in a roundabout way.** -/
theorem dependencyOrder_eq_error (h : dependencyOrder files = .error name) :
    Relation.TransGen (Imports files) name name := by
  rw [dependencyOrder] at h
  cases hvisit : visit files [] ((files.map (·.name)).mergeSort (· ≤ ·)) [] with
  | ok names =>
    rw [hvisit] at h
    cases h
  | error n =>
    rw [hvisit] at h
    obtain rfl := Except.error.inj h
    exact visit_eq_error hvisit (List.forall_mem_nil _)

end CallCheck.Reflection

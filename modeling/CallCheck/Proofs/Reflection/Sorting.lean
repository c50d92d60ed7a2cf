import CallCheck.Proofs.Reflection.Order
import Mathlib.Data.List.Perm.Basic
import Mathlib.Data.List.Permutation

/-!
# The dependency order as a sort

Files have a dependency order unless they import each other in a circle, and then the order has each
of them once. Of the files only what they are called by name matters, and the walk starts from the
names in their own order, so the order in which the files were given does not.

## Depth

`Walks` describes the walk by rules that nothing bounds, and counts how deep a walk goes. A walk
goes one deeper at a file that is not being visited, so it is never deeper than there are files
(`walks_visit`). In particular it comes to an end.

## Main statement

* `Reflection.dependencyOrder_exact`: when there is an order, what it is, that it is the same for
  all orders of the input, and how deep the walk goes.
-/

namespace CallCheck.Reflection

open Schema (FileDecl)

variable {files files' : List FileDecl} {visiting names done : List String} {name : String}

/-! ## How deep a walk goes -/

/-- A walk over names comes to a result, and is nowhere deeper than a bound. A walk is one deeper
than the walk over what a file imports. -/
inductive Walks (files : List FileDecl) :
    ℕ → List String → List String → List String → Except String (List String) → Prop
  | nil {depth : ℕ} {visiting done : List String} : Walks files depth visiting [] done (.ok done)
  /-- A name that has been put down already is passed over. -/
  | known {depth : ℕ} {visiting rest done : List String} {name : String}
      {result : Except String (List String)} : name ∈ done →
      Walks files depth visiting rest done result →
      Walks files depth visiting (name :: rest) done result
  /-- A name that is being visited ends the walk. -/
  | again {depth : ℕ} {visiting rest done : List String} {name : String} : name ∉ done →
      name ∈ visiting → Walks files depth visiting (name :: rest) done (.error name)
  /-- A name that no file bears is put down at once. -/
  | unknown {depth : ℕ} {visiting rest done : List String} {name : String}
      {result : Except String (List String)} : name ∉ done → name ∉ visiting →
      files.find? (·.name == name) = none →
      Walks files depth visiting rest (done ++ [name]) result →
      Walks files depth visiting (name :: rest) done result
  /-- What a file imports cannot be put down. -/
  | inner {depth : ℕ} {visiting rest done : List String} {name cycle : String} {f : FileDecl} :
      name ∉ done → name ∉ visiting → files.find? (·.name == name) = some f →
      Walks files depth (name :: visiting) f.imports done (.error cycle) →
      Walks files (depth + 1) visiting (name :: rest) done (.error cycle)
  /-- A name is put down after what its file imports. -/
  | file {depth : ℕ} {visiting rest done between : List String} {name : String} {f : FileDecl}
      {result : Except String (List String)} : name ∉ done → name ∉ visiting →
      files.find? (·.name == name) = some f →
      Walks files depth (name :: visiting) f.imports done (.ok between) →
      Walks files (depth + 1) visiting rest (between ++ [name]) result →
      Walks files (depth + 1) visiting (name :: rest) done result

/-- **Run lemma.** A walk is never deeper than there are files that are not being visited. -/
theorem walks_visit {depth : ℕ} (hdepth : unvisited files visiting ≤ depth) :
    Walks files depth visiting names done (visit files visiting names done) := by
  -- A file that is gone into is being visited, so inside there is room for one less.
  fun_induction visit files visiting names done generalizing depth with
  | case1 visiting done => exact .nil
  | case2 visiting name rest done hname ih => exact .known hname (ih hdepth)
  | case3 visiting name rest done hname hvisiting => exact .again hname hvisiting
  | case4 visiting name rest done hname hvisiting hfind ih =>
    exact .unknown hname hvisiting hfind (ih hdepth)
  | case5 visiting name rest done hname hvisiting f hfind hlt cycle hcycle ihimports =>
    have hless := Nat.lt_of_lt_of_le hlt hdepth
    obtain ⟨depth, rfl⟩ := Nat.exists_eq_add_one.2 (Nat.zero_lt_of_lt hless)
    have hinner := ihimports (Nat.le_of_lt_succ hless)
    rw [hcycle] at hinner
    exact .inner hname hvisiting hfind hinner
  | case6 visiting name rest done hname hvisiting f hfind hlt between hbetween ihimports ih =>
    have hless := Nat.lt_of_lt_of_le hlt hdepth
    obtain ⟨depth, rfl⟩ := Nat.exists_eq_add_one.2 (Nat.zero_lt_of_lt hless)
    have hinner := ihimports (Nat.le_of_lt_succ hless)
    rw [hbetween] at hinner
    exact .file hname hvisiting hfind hinner (ih hdepth)

/-! ## The order of the input -/

theorem visit_unknown {rest : List String} (hname : name ∉ done) (hvisiting : name ∉ visiting)
    (hfind : files.find? (·.name == name) = none) :
    visit files visiting (name :: rest) done = visit files visiting rest (done ++ [name]) := by
  rw [visit, if_neg hname, dif_neg hvisiting]
  split
  · rfl
  · rename_i hsome
    rw [hfind] at hsome
    cases hsome

theorem visit_file {rest : List String} {f : FileDecl} (hname : name ∉ done)
    (hvisiting : name ∉ visiting) (hfind : files.find? (·.name == name) = some f) :
    visit files visiting (name :: rest) done = visit files (name :: visiting) f.imports done >>=
      fun between ↦ visit files visiting rest (between ++ [name]) := by
  rw [visit, if_neg hname, dif_neg hvisiting]
  split
  · rename_i hnone
    rw [hfind] at hnone
    cases hnone
  · rename_i g hg
    obtain rfl : f = g := Option.some.inj (hfind.symm.trans hg)
    dsimp only
    cases visit files (name :: visiting) f.imports done <;> rfl

/-- A walk looks files up by their names and in no other way. -/
theorem visit_congr
    (h : ∀ name, files.find? (·.name == name) = files'.find? (·.name == name)) :
    visit files visiting names done = visit files' visiting names done := by
  fun_induction visit files visiting names done with
  | case1 visiting done => rw [visit]
  | case2 visiting name rest done hname ih => rw [visit, if_pos hname, ih]
  | case3 visiting name rest done hname hvisiting =>
    rw [visit, if_neg hname, dif_pos hvisiting]
  | case4 visiting name rest done hname hvisiting hfind ih =>
    rw [visit_unknown hname hvisiting (h name ▸ hfind), ih]
  | case5 visiting name rest done hname hvisiting f hfind hlt cycle hcycle ihimports =>
    rw [visit_file hname hvisiting (h name ▸ hfind), ← ihimports, hcycle]
    rfl
  | case6 visiting name rest done hname hvisiting f hfind hlt between hbetween ihimports ih =>
    rw [visit_file hname hvisiting (h name ▸ hfind), ← ihimports, hbetween, ih]
    rfl

theorem find?_perm (hnodup : (files.map (·.name)).Nodup) (hperm : files'.Perm files)
    (name : String) : files'.find? (·.name == name) = files.find? (·.name == name) := by
  have hnodup' : (files'.map (·.name)).Nodup := (hperm.map _).nodup_iff.2 hnodup
  by_cases hname : ∃ f ∈ files, f.name = name
  · obtain ⟨f, hf, rfl⟩ := hname
    rw [find?_name hnodup hf, find?_name hnodup' (hperm.mem_iff.2 hf)]
  · have hnone : ∀ f ∈ files, ¬(f.name == name) = true := fun f hf heq ↦
      hname ⟨f, hf, beq_iff_eq.1 heq⟩
    rw [List.find?_eq_none.2 hnone, List.find?_eq_none.2 fun f hf ↦ hnone f (hperm.mem_iff.1 hf)]

/-- The names from which the walk starts do not depend on the order of the files. -/
theorem sortedNames_perm (hperm : files'.Perm files) :
    (files'.map (·.name)).mergeSort (· ≤ ·) = (files.map (·.name)).mergeSort (· ≤ ·) := by
  have hsorted (names : List String) : (names.mergeSort (· ≤ ·)).Pairwise (· ≤ ·) := by
    have hpairwise : (names.mergeSort (· ≤ ·)).Pairwise fun a b ↦ decide (a ≤ b) = true := by
      refine List.pairwise_mergeSort (fun a b c hab hbc ↦ ?_) (fun a b ↦ ?_) names
      · exact decide_eq_true (String.le_trans (of_decide_eq_true hab) (of_decide_eq_true hbc))
      · simpa using String.le_total a b
    exact hpairwise.imp of_decide_eq_true
  refine List.Perm.eq_of_pairwise (fun a b _ _ ↦ String.le_antisymm) (hsorted _) (hsorted _) ?_
  exact (List.mergeSort_perm _ _).trans ((hperm.map _).trans (List.mergeSort_perm _ _).symm)

theorem dependencyOrder_perm (hnodup : (files.map (·.name)).Nodup) (hperm : files'.Perm files) :
    dependencyOrder files' = dependencyOrder files := by
  have hfind := find?_perm hnodup hperm
  rw [dependencyOrder, dependencyOrder, sortedNames_perm hperm, visit_congr hfind]
  simp only [hfind]

/-! ## What the order has -/

theorem ImportsFirst.mem_of_filesInOrder (h : ImportsFirst files names)
    (hnodup : (files.map (·.name)).Nodup) {before after : List FileDecl} {f g : FileDecl}
    (hsplit : filesInOrder files names = before ++ f :: after) (hg : g ∈ files)
    (himports : g.name ∈ f.imports) : g ∈ before := by
  induction h generalizing after with
  | nil => simp [filesInOrder] at hsplit
  | @concat done last _ hlast ih =>
    rw [filesInOrder_concat] at hsplit
    cases hfind : files.find? (·.name == last) with
    | none =>
      rw [hfind, Option.toList_none, List.append_nil] at hsplit
      exact ih hsplit
    | some f' =>
      rw [hfind, Option.toList_some] at hsplit
      -- The file is the one that was added last, or it stands among those before.
      rcases List.eq_nil_or_concat after with rfl | ⟨after, f'', rfl⟩
      · obtain ⟨rfl, hf⟩ := List.append_inj' hsplit rfl
        obtain rfl := List.singleton_inj.1 hf
        exact mem_filesInOrder hnodup hg (hlast f' hfind _ himports)
      · rw [List.concat_eq_append, ← List.cons_append, ← List.append_assoc] at hsplit
        exact ih (List.append_inj' hsplit rfl).1

theorem filesInOrder_perm (hnodup : (files.map (·.name)).Nodup) (hnames : names.Nodup)
    (hall : ∀ f ∈ files, f.name ∈ names) : (filesInOrder files names).Perm files := by
  have hordered : (filesInOrder files names).Nodup :=
    .of_map (·.name) ((names_filesInOrder_sublist files names).nodup hnames)
  rw [List.perm_ext_iff_of_nodup hordered (.of_map (·.name) hnodup)]
  intro f
  exact ⟨fun hf ↦ filesInOrder_subset files names hf,
    fun hf ↦ mem_filesInOrder hnodup hf (hall f hf)⟩

/-- **The dependency order.** For files of different names, whatever they import:

* there is none exactly if files import each other in a circle, or one imports itself;
* it has each file once, and after all files that it imports;
* it does not depend on the order in which the files are given;
* the walk that finds it comes to an end, and is never deeper than there are files. -/
theorem dependencyOrder_exact (files : List FileDecl) (hnodup : (files.map (·.name)).Nodup) :
    ((∃ name, dependencyOrder files = .error name) ↔
        ∃ name, Relation.TransGen (Imports files) name name) ∧
      (∀ ordered, dependencyOrder files = .ok ordered →
        ordered.Perm files ∧
          ∀ before f after, ordered = before ++ f :: after →
            ∀ g ∈ files, g.name ∈ f.imports → g ∈ before) ∧
      (∀ files' : List FileDecl, files'.Perm files →
        dependencyOrder files' = dependencyOrder files) ∧
      ∃ names result, Walks files files.length [] names [] result ∧
        (∀ name, name ∈ names ↔ ∃ f ∈ files, f.name = name) ∧
        dependencyOrder files = result.map (filesInOrder files) := by
  refine ⟨⟨?_, ?_⟩, ?_, fun files' hperm ↦ dependencyOrder_perm hnodup hperm, ?_⟩
  · rintro ⟨name, herror⟩
    exact ⟨name, dependencyOrder_eq_error herror⟩
  · rintro ⟨name, hcycle⟩
    cases horder : dependencyOrder files with
    | error cycle => exact ⟨cycle, rfl⟩
    | ok ordered => exact absurd hcycle (not_transGen_of_dependencyOrder horder hnodup)
  · intro ordered horder
    obtain ⟨names, rfl, hnames, hfirst, hall⟩ := dependencyOrder_eq_ok horder
    exact ⟨filesInOrder_perm hnodup hnames hall, fun before f after hsplit g hg himports ↦
      hfirst.mem_of_filesInOrder hnodup hsplit hg himports⟩
  · refine ⟨_, _, walks_visit List.countP_le_length, fun name ↦ ?_, rfl⟩
    rw [List.mem_mergeSort, List.mem_map]

/-- A file of which only the name and the imports matter. -/
def importing (name : String) (imports : List String) : FileDecl := { name, imports }

/-- Two files import the same one and are both imported by another, one of them twice, together with
a file that is not there. -/
def diamond : List FileDecl :=
  [importing "d" ["b", "c", "b", "x"], importing "c" ["a"], importing "b" ["a"], importing "a" []]

/-- No file imports itself in a roundabout way, so the files have an order, and they have the same
when they are given the other way round. -/
theorem dependencyOrder_exact_diamond :
    (diamond.map (·.name)).Nodup ∧ dependencyOrder diamond = .ok diamond.reverse ∧
      diamond.reverse.Perm diamond ∧
      (∀ name, ¬Relation.TransGen (Imports diamond) name name) ∧
      dependencyOrder diamond.reverse = .ok diamond.reverse := by
  have hnodup : (diamond.map (·.name)).Nodup := by decide
  have horder : dependencyOrder diamond = .ok diamond.reverse := by cbv
  obtain ⟨hcycle, hordered, hperm, -⟩ := dependencyOrder_exact diamond hnodup
  refine ⟨hnodup, horder, (hordered _ horder).1, fun name hname ↦ ?_,
    (hperm _ (List.reverse_perm diamond)).trans horder⟩
  obtain ⟨cycle, herror⟩ := hcycle.2 ⟨name, hname⟩
  rw [horder] at herror
  cases herror

end CallCheck.Reflection

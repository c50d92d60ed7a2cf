import CallCheck.Reflection.Order
import CallCheck.Schema.Link
import Mathlib.Data.List.Nodup

/-!
# Which files can be seen from a file

A file sees its imports and what they pass on, step by step. There are as many steps as files, and
every step that adds a name adds that of a file, so the steps suffice: `passedOnBy` is closed under
passing on, and has nothing that is not passed on (`Schema.Reached`).

## Main statement

`Schema.mem_visibleFrom_iff`: a file sees the same files in every collection that holds the imports
of its own files.
-/

namespace CallCheck.Schema

open Reflection (unvisited unvisited_lt)

variable {all part : List FileDecl} {f g : FileDecl} {names : List String} {name : String}

/-! ## Collections of files -/

/-- A collection of files that holds what its files import. -/
def SelfContained (all : List FileDecl) : Prop :=
  ∀ f ∈ all, ∀ i ∈ f.imports, ∃ g ∈ all, g.name = i

theorem passedOn_subset (f : FileDecl) : f.passedOn ⊆ f.imports := by
  intro name hname
  obtain ⟨i, -, hi⟩ := List.mem_filterMap.1 hname
  split at hi
  · exact List.mem_of_getElem? hi
  · cases hi

/-! ## Names that are passed on -/

/-- A name among some names, or passed on by a file that is so reached. -/
inductive Reached (all : List FileDecl) (names : List String) : String → Prop
  | given {name : String} : name ∈ names → Reached all names name
  | passedOn {f : FileDecl} {name : String} : f ∈ all → Reached all names f.name →
      name ∈ f.passedOn → Reached all names name

theorem Reached.trans {names' : List String} (hnames : ∀ n ∈ names', Reached all names n)
    (h : Reached all names' name) : Reached all names name := by
  induction h with
  | given hmem => exact hnames _ hmem
  | passedOn hf _ hname ih => exact .passedOn hf ih hname

/-- What the files of some names pass on. -/
def passedOnStep (all : List FileDecl) (names : List String) : List String :=
  (all.filter (names.contains ·.name)).flatMap FileDecl.passedOn

theorem passedOnBy_succ (all : List FileDecl) (steps : Nat) (names : List String) :
    passedOnBy all (steps + 1) names = passedOnBy all steps
      (names ++ (passedOnStep all names).filter (!names.contains ·)) := rfl

theorem mem_passedOnStep : name ∈ passedOnStep all names ↔
    ∃ f ∈ all, f.name ∈ names ∧ name ∈ f.passedOn := by
  rw [passedOnStep, List.mem_flatMap]
  constructor
  · rintro ⟨f, hf, hname⟩
    obtain ⟨hf, hcontains⟩ := List.mem_filter.1 hf
    exact ⟨f, hf, List.contains_iff_mem.1 hcontains, hname⟩
  · rintro ⟨f, hf, hmem, hname⟩
    exact ⟨f, List.mem_filter.2 ⟨hf, List.contains_iff_mem.2 hmem⟩, hname⟩

theorem subset_passedOnBy (all : List FileDecl) (steps : Nat) (names : List String) :
    names ⊆ passedOnBy all steps names := by
  induction steps generalizing names with
  | zero => exact List.Subset.refl names
  | succ steps ih =>
    rw [passedOnBy_succ]
    exact fun n hn ↦ ih _ (List.mem_append_left _ hn)

theorem reached_of_mem_passedOnBy {steps : Nat} (h : name ∈ passedOnBy all steps names) :
    Reached all names name := by
  induction steps generalizing names with
  | zero => exact .given h
  | succ steps ih =>
    rw [passedOnBy_succ] at h
    refine (ih h).trans fun n hn ↦ ?_
    rcases List.mem_append.1 hn with hn | hn
    · exact .given hn
    · obtain ⟨f, hf, hmem, hname⟩ := mem_passedOnStep.1 (List.mem_filter.1 hn).1
      exact .passedOn hf (.given hmem) hname

/-- Names that files pass nothing on to beyond them. -/
def Settled (all : List FileDecl) (names : List String) : Prop := passedOnStep all names ⊆ names

theorem passedOnBy_of_settled (h : Settled all names) (steps : Nat) :
    passedOnBy all steps names = names := by
  induction steps with
  | zero => rfl
  | succ steps ih =>
    have hnone : (passedOnStep all names).filter (!names.contains ·) = [] := by
      rw [List.filter_eq_nil_iff]
      intro n hn
      rw [List.contains_iff_mem.2 (h hn)]
      exact Bool.false_ne_true
    rw [passedOnBy_succ, hnone, List.append_nil, ih]

/-- Each step that adds a name adds that of a file, so there are steps enough. -/
theorem settled_passedOnBy (hall : SelfContained all) {steps : Nat}
    (hsteps : unvisited all names ≤ steps) : Settled all (passedOnBy all steps names) := by
  induction steps generalizing names with
  | zero =>
    -- What is passed on is the name of a file, and no file is left whose name is not there.
    intro n hn
    obtain ⟨f, hf, -, hname⟩ := mem_passedOnStep.1 hn
    obtain ⟨g, hg, rfl⟩ := hall f hf n (passedOn_subset f hname)
    have hvisited := List.countP_eq_zero.1 (Nat.le_zero.1 hsteps) g hg
    rw [Bool.not_eq_true, Bool.not_eq_false'] at hvisited
    exact List.contains_iff_mem.1 hvisited
  | succ steps ih =>
    by_cases hsettled : Settled all names
    · rw [passedOnBy_of_settled hsettled]
      exact hsettled
    · obtain ⟨n, hn, hnew⟩ : ∃ n ∈ passedOnStep all names, n ∉ names :=
        Classical.byContradiction fun hnone ↦ hsettled fun n hn ↦
          Classical.byContradiction fun hnew ↦ hnone ⟨n, hn, hnew⟩
      obtain ⟨f, hf, -, hname⟩ := mem_passedOnStep.1 hn
      obtain ⟨g, hg, rfl⟩ := hall f hf n (passedOn_subset f hname)
      rw [passedOnBy_succ]
      have hadded : g.name ∈ (passedOnStep all names).filter (!names.contains ·) := by
        rw [List.mem_filter, Bool.not_eq_true']
        exact ⟨hn, Bool.eq_false_iff.2 fun h ↦ hnew (List.contains_iff_mem.1 h)⟩
      have hless := unvisited_lt (List.subset_append_left names _) hg hnew
        (List.mem_append_right names hadded)
      exact ih (Nat.le_of_lt_succ (Nat.lt_of_lt_of_le hless hsteps))

theorem mem_passedOnBy_iff (hall : SelfContained all) :
    name ∈ passedOnBy all all.length names ↔ Reached all names name := by
  constructor
  · exact reached_of_mem_passedOnBy
  · intro h
    induction h with
    | given hmem => exact subset_passedOnBy all _ names hmem
    | @passedOn f name hf _ hname ih =>
      exact settled_passedOnBy hall List.countP_le_length (mem_passedOnStep.2 ⟨f, hf, ih, hname⟩)

/-! ## Visible files -/

theorem mem_visibleFrom_iff_reached (hall : SelfContained all) :
    name ∈ visibleFrom all f ↔ name = f.name ∨ Reached all f.imports name := by
  rw [visibleFrom, List.mem_cons, mem_passedOnBy_iff hall]

/-- What is reached from names of a part that holds its own imports is in the part, and is reached
there. -/
theorem Reached.of_subset (hnodup : (all.map (·.name)).Nodup) (hsub : part ⊆ all)
    (hpart : SelfContained part) (hnames : ∀ n ∈ names, ∃ g ∈ part, g.name = n)
    (h : Reached all names name) : Reached part names name ∧ ∃ g ∈ part, g.name = name := by
  induction h with
  | given hmem => exact ⟨.given hmem, hnames _ hmem⟩
  | @passedOn f name hf _ hname ih =>
    obtain ⟨hreached, g, hg, heq⟩ := ih
    obtain rfl := List.inj_on_of_nodup_map hnodup (hsub hg) hf heq
    exact ⟨.passedOn hg hreached hname, hpart g hg name (passedOn_subset g hname)⟩

theorem Reached.mono (hsub : part ⊆ all) (h : Reached part names name) :
    Reached all names name := by
  induction h with
  | given hmem => exact .given hmem
  | passedOn hf _ hname ih => exact .passedOn (hsub hf) ih hname

/-- **A file sees the same files in every collection that holds the imports of its own files.** -/
theorem mem_visibleFrom_iff (hnodup : (all.map (·.name)).Nodup) (hall : SelfContained all)
    (hsub : part ⊆ all) (hpart : SelfContained part) (hf : f ∈ part) :
    name ∈ visibleFrom all f ↔ name ∈ visibleFrom part f ∧ ∃ g ∈ part, g.name = name := by
  rw [mem_visibleFrom_iff_reached hall, mem_visibleFrom_iff_reached hpart]
  constructor
  · rintro (rfl | h)
    · exact ⟨.inl rfl, f, hf, rfl⟩
    · obtain ⟨hreached, hname⟩ := h.of_subset hnodup hsub hpart (hpart f hf)
      exact ⟨.inr hreached, hname⟩
  · rintro ⟨rfl | h, -⟩
    · exact .inl rfl
    · exact .inr (h.mono hsub)

end CallCheck.Schema

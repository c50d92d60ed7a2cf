import CallCheck.Schema.Declaration

/-!
# Dependency order

Files are put into an order in which each comes after its imports, those that are among them. The
walk is depth first and starts from every name in turn, in the order of names, so that the order
of the files as they were given does not matter.

## Termination

Imports are names, and a name need not be that of a file. A walk goes deeper only at a file whose
name is not being visited, and then visits that name: the files not being visited become fewer.
-/

namespace CallCheck.Reflection

open Schema (FileDecl)

/-- How many files have names that are not being visited. -/
def unvisited (files : List FileDecl) (visiting : List String) : Nat :=
  files.countP fun f ↦ !visiting.contains f.name

/-- A file whose name comes to be visited is one less. -/
theorem unvisited_lt {files : List FileDecl} {visiting more : List String} {f : FileDecl}
    (hsub : visiting ⊆ more) (hf : f ∈ files) (hv : f.name ∉ visiting) (hmore : f.name ∈ more) :
    unvisited files more < unvisited files visiting := by
  have hkept : (files.filter (!visiting.contains ·.name)).filter (!more.contains ·.name) =
      files.filter (!more.contains ·.name) := by
    rw [List.filter_filter]
    refine List.filter_congr fun g _ ↦ ?_
    by_cases hg : g.name ∈ visiting
    · simp [hg, hsub hg]
    · simp [hg]
  rw [unvisited, unvisited, List.countP_eq_length_filter, List.countP_eq_length_filter, ← hkept]
  exact List.length_filter_lt_length_iff_exists.2
    ⟨f, List.mem_filter.2 ⟨hf, by simpa using hv⟩, by simpa using hmore⟩

/-- Visits names in order, with those they import first, and puts them after the names already
`done`. Fails with a name that is reached again while it is being visited. -/
def visit (files : List FileDecl) (visiting : List String) :
    List String → List String → Except String (List String)
  | [], done => .ok done
  | name :: rest, done =>
    if name ∈ done then visit files visiting rest done
    else if hv : name ∈ visiting then .error name
    else
      match hf : files.find? (·.name == name) with
      | none => visit files visiting rest (done ++ [name])
      | some f =>
        have : unvisited files (name :: visiting) < unvisited files visiting := by
          have hname : f.name = name := by simpa using List.find?_some hf
          exact unvisited_lt (List.subset_cons_self name visiting) (List.mem_of_find?_eq_some hf)
            (hname ▸ hv) (hname ▸ List.mem_cons_self)
        match visit files (name :: visiting) f.imports done with
        | .error cycle => .error cycle
        | .ok done => visit files visiting rest (done ++ [name])
  termination_by names => (unvisited files visiting, names.length)

/-- The files in dependency order, or a name that imports itself in a roundabout way. -/
def dependencyOrder (files : List FileDecl) : Except String (List FileDecl) :=
  let names := (files.map (·.name)).mergeSort (· ≤ ·)
  (visit files [] names []).map fun ordered ↦
    ordered.filterMap fun name ↦ files.find? (·.name == name)

end CallCheck.Reflection

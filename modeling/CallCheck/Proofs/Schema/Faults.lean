import CallCheck.Proofs.Schema.Linking

/-!
# When an import is said to be missing

Of all the checks of linking only one looks at the imports of a file, and no other says that one of
them is missing.

## Main statement

* `Schema.noneMissing_add`: linking does not say so of files whose imports are in the pool or among
  the files that are added.
-/

namespace CallCheck.Schema

variable {α β : Type} {all files : List FileDecl} {f : FileDecl} {P : Pool} {file name : String}

/-- Whether a fault says that an import is missing. -/
def LinkFault.isMissingImport : LinkFault → Bool
  | .missingImport _ _ => true
  | _ => false

/-- A computation that does not say that an import is missing. -/
def NoneMissing (x : Except LinkFault α) : Prop :=
  ∀ file name, x ≠ .error (.missingImport file name)

namespace NoneMissing

theorem ok (a : α) : NoneMissing (.ok a) := by
  intro file name h
  cases h

theorem error {fault : LinkFault} (h : fault.isMissingImport = false) :
    NoneMissing (.error fault : Except LinkFault α) := by
  intro file name hfault
  rw [Except.error.inj hfault] at h
  cases h

theorem bind {x : Except LinkFault α} {g : α → Except LinkFault β} (hx : NoneMissing x)
    (hg : ∀ a, NoneMissing (g a)) : NoneMissing (x >>= g) := by
  intro file name h
  cases x with
  | error fault => exact hx file name (congrArg Except.error (Except.error.inj h))
  | ok a => exact hg a file name h

theorem require {ok : Bool} {fault : LinkFault} (h : fault.isMissingImport = false) :
    NoneMissing (Schema.require ok fault) := by
  cases ok with
  | true => exact NoneMissing.ok ()
  | false => exact error h

theorem mapM {g : α → Except LinkFault β} {l : List α} (hg : ∀ a ∈ l, NoneMissing (g a)) :
    NoneMissing (l.mapM g) := by
  induction l with
  | nil => exact ok []
  | cons a l ih =>
    obtain ⟨ha, hl⟩ := List.forall_mem_cons.1 hg
    rw [List.mapM_cons]
    exact ha.bind fun b ↦ (ih hl).bind fun bs ↦ ok (b :: bs)

end NoneMissing

/-! ## The checks of declarations -/

theorem noneMissing_resolve (s : Scope) (kinds : List DefinitionKind) (name : String) :
    NoneMissing (s.resolve kinds name) := by
  rw [Scope.resolve]
  split
  · exact .ok _
  · exact .error rfl

theorem noneMissing_typeOf (s : Scope) (d : FieldDecl) : NoneMissing (s.typeOf d) := by
  rw [Scope.typeOf]
  split
  · exact (noneMissing_resolve _ _ _).bind fun _ ↦ .ok _
  · exact .ok _
  · exact .ok _
  · exact .error rfl

theorem noneMissing_linkField (modern : Bool) (s : Scope) (m : MessageDecl) (d : FieldDecl) :
    NoneMissing (linkField modern s m d) :=
  .bind (.require rfl) fun _ ↦ .bind (.require rfl) fun _ ↦
    (noneMissing_typeOf s d).bind fun _ ↦ .ok _

theorem noneMissing_linkMessage (modern : Bool) (ds : List Definition) (full : String)
    (m : MessageDecl) : NoneMissing (linkMessage modern ds full m) :=
  .bind (.mapM fun d _ ↦ noneMissing_linkField modern _ m d) fun _ ↦ .bind (.require rfl) fun _ ↦
    .bind (.require rfl) fun _ ↦ .bind (.require rfl) fun _ ↦ .ok _

theorem noneMissing_linkEnum (modern : Bool) (scope : String) (e : EnumDecl) :
    NoneMissing (linkEnum modern scope e) :=
  .bind (.require rfl) fun _ ↦ .bind (.require rfl) fun _ ↦ .bind (.require rfl) fun _ ↦
    .bind (.require rfl) fun _ ↦ .ok _

theorem noneMissing_linkService (ds : List Definition) (package : String) (s : ServiceDecl) :
    NoneMissing (linkService ds package s) :=
  .bind (.mapM fun _ _ ↦ (noneMissing_resolve _ _ _).bind fun _ ↦
    (noneMissing_resolve _ _ _).bind fun _ ↦ .ok _) fun _ ↦ .ok _

theorem noneMissing_linkExtension (modern : Bool) (ds : List Definition)
    (messages : List (String × MessageDecl)) (scope : String) (d : FieldDecl) :
    NoneMissing (linkExtension modern ds messages scope d) :=
  (noneMissing_resolve _ _ _).bind fun _ ↦ .bind (.require rfl) fun _ ↦
    (noneMissing_typeOf _ d).bind fun _ ↦ .ok _

/-! ## Files -/

theorem noneMissing_linkIn (himports : ∀ i ∈ f.imports, ∃ g ∈ all, g.name = i) :
    NoneMissing (linkIn all f) := by
  rw [linkIn_eq himports]
  exact .bind (.require rfl) fun _ ↦ .bind (.require rfl) fun _ ↦
    .bind (.mapM fun _ _ ↦ noneMissing_linkMessage _ _ _ _) fun _ ↦
    .bind (.mapM fun _ _ ↦ noneMissing_linkEnum _ _ _) fun _ ↦
    .bind (.mapM fun _ _ ↦ noneMissing_linkService _ _ _) fun _ ↦
    .bind (.mapM fun _ _ ↦ noneMissing_linkExtension _ _ _ _ _) fun _ ↦ .ok _

/-- **No import is said to be missing** of files whose imports are in the pool or among them. -/
theorem noneMissing_add
    (himports : ∀ f ∈ files, ∀ i ∈ f.imports, ∃ g ∈ P.files ++ files, g.name = i) :
    NoneMissing (P.add files) := by
  let new := files.filter fun f ↦ !P.files.any (·.name == f.name)
  have hlinked : NoneMissing (new.mapM (linkIn (P.files ++ new))) := by
    refine .mapM fun f hf ↦ noneMissing_linkIn fun i hi ↦ ?_
    obtain ⟨g, hg, rfl⟩ := himports f (List.mem_filter.1 hf).1 i hi
    rcases List.mem_append.1 hg with hg | hg
    · exact ⟨g, List.mem_append_left _ hg, rfl⟩
    -- A file that is left out has a namesake in the pool.
    by_cases hnamesake : P.files.any (·.name == g.name) = true
    · obtain ⟨g', hg', heq⟩ := List.any_eq_true.1 hnamesake
      exact ⟨g', List.mem_append_left _ hg', beq_iff_eq.1 heq⟩
    · refine ⟨g, List.mem_append_right _ (List.mem_filter.2 ⟨hg, ?_⟩), rfl⟩
      rw [Bool.not_eq_true', Bool.eq_false_iff]
      exact hnamesake
  rw [Pool.add]
  refine .bind (.require rfl) fun _ ↦ .bind (.require rfl) fun _ ↦ ?_
  dsimp only
  split
  · exact .bind (.error rfl) fun _ ↦ hlinked.bind fun _ ↦ .ok _
  · exact .bind (.ok _) fun _ ↦ hlinked.bind fun _ ↦ .ok _

end CallCheck.Schema

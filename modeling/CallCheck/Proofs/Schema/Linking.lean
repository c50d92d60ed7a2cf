import CallCheck.Proofs.Schema.Names
import CallCheck.Proofs.Schema.Visible

/-!
# Linking file by file

What a file contributes to a pool depends only on the files it can see. So a collection may be
linked all at once, or one file after the other as long as each comes after what it imports, and a
file contributes the same.

## Main statements

* `Schema.linkIn_congr`: a file contributes the same to the pool of a collection and to that of any
  part of it that has the file and holds what its files import.
* `Schema.service?_eq_some`: a service is found in every pool that is put together from
  contributions, that of the file which declares it among them.
-/

namespace CallCheck.Schema

variable {all part : List FileDecl} {f g : FileDecl} {p q P : Pool} {d : Definition}

/-! ## Collections that can be linked -/

/-- What the files of a collection define. -/
def definitionsOf (all : List FileDecl) : List Definition := all.flatMap FileDecl.definitions

/-- The message types of a collection with their full names. -/
def messagesOf (all : List FileDecl) : List (String × MessageDecl) :=
  all.flatMap FileDecl.allMessages

/-- A collection whose files have names of their own and that holds what they import, without a
clash among their definitions. -/
structure WellFormed (all : List FileDecl) : Prop where
  /-- No two files share a name. -/
  nodup : (all.map (·.name)).Nodup
  /-- No name is empty. -/
  named : ∀ f ∈ all, f.name.isEmpty = false
  /-- The imports are there. -/
  selfContained : SelfContained all
  /-- No two definitions clash. -/
  noClash : NoClash (definitionsOf all)

/-- Definitions of two files do not clash. -/
def Apart (f g : FileDecl) : Prop :=
  ∀ d ∈ f.definitions, ∀ e ∈ g.definitions, d.compatible e = true

theorem noClash_definitionsOf_iff : NoClash (definitionsOf all) ↔
    (∀ f ∈ all, NoClash f.definitions) ∧ all.Pairwise Apart := List.pairwise_flatMap

theorem Apart.symm (h : Apart f g) : Apart g f := fun d hd e he ↦ compatible_symm (h e he d hd)

namespace WellFormed

theorem noClash_file (h : WellFormed all) (hf : f ∈ all) : NoClash f.definitions :=
  (noClash_definitionsOf_iff.1 h.noClash).1 f hf

theorem apart (h : WellFormed all) (hf : f ∈ all) (hg : g ∈ all) (hne : f ≠ g) : Apart f g :=
  Classical.byContradiction fun hnot ↦ hne <|
    eq_of_pairwise (fun _ _ ↦ Apart.symm) (noClash_definitionsOf_iff.1 h.noClash).2 hf hg hnot

/-- A part of a collection that holds what its files import can be linked, too. -/
theorem of_subset (h : WellFormed all) (hsub : part ⊆ all) (hnodup : (part.map (·.name)).Nodup)
    (hpart : SelfContained part) : WellFormed part where
  nodup := hnodup
  named f hf := h.named f (hsub hf)
  selfContained := hpart
  noClash := by
    refine noClash_definitionsOf_iff.2 ⟨fun f hf ↦ h.noClash_file (hsub hf), ?_⟩
    refine (List.pairwise_map.1 hnodup).imp_of_mem fun hf hg hne ↦ ?_
    exact h.apart (hsub hf) (hsub hg) fun heq ↦ hne (congrArg FileDecl.name heq)

theorem messages_pairwise (h : WellFormed all) :
    (messagesOf all).Pairwise fun a b ↦ a.1 ≠ b.1 := by
  refine List.pairwise_flatMap.2
    ⟨fun f hf ↦ (FileDecl.pairwise_of_noClash (h.noClash_file hf)).1, ?_⟩
  refine (noClash_definitionsOf_iff.1 h.noClash).2.imp fun hapart a ha b hb heq ↦ ?_
  have hcompatible := hapart _ (FileDecl.message_mem_definitions ha) _
    (FileDecl.message_mem_definitions hb)
  cases (compatible_iff.1 hcompatible heq).1

end WellFormed

theorem lookup_eq_some {α : Type} {l : List (String × α)} (h : l.Pairwise fun a b ↦ a.1 ≠ b.1)
    {key : String} {a : α} (ha : (key, a) ∈ l) : l.lookup key = some a := by
  induction l with
  | nil => cases ha
  | cons b l ih =>
    obtain ⟨hb, hl⟩ := List.pairwise_cons.1 h
    rcases List.mem_cons.1 ha with rfl | ha'
    · rw [List.lookup_cons_self]
    · rw [List.lookup_cons, beq_eq_false_iff_ne.2 (hb _ ha').symm]
      exact ih hl ha'

/-! ## What a file contributes -/

/-- The definitions that a file can see. -/
def seenBy (all : List FileDecl) (f : FileDecl) : List Definition :=
  (definitionsOf all).filter ((visibleFrom all f).contains ·.file)

/-- What a file contributes to the pool of a collection. -/
def linkIn (all : List FileDecl) (f : FileDecl) : Except LinkFault Pool :=
  linkFile all (definitionsOf all) (messagesOf all) f

theorem mem_seenBy : d ∈ seenBy all f ↔
    ∃ g ∈ all, d ∈ g.definitions ∧ g.name ∈ visibleFrom all f := by
  rw [seenBy, List.mem_filter, definitionsOf, List.mem_flatMap, List.contains_iff_mem]
  constructor
  · rintro ⟨⟨g, hg, hd⟩, hvisible⟩
    exact ⟨g, hg, hd, (FileDecl.of_mem_definitions hd).1 ▸ hvisible⟩
  · rintro ⟨g, hg, hd, hvisible⟩
    exact ⟨⟨g, hg, hd⟩, (FileDecl.of_mem_definitions hd).1.symm ▸ hvisible⟩

theorem linkIn_eq (himports : ∀ i ∈ f.imports, ∃ g ∈ all, g.name = i) :
    linkIn all f = (do
      require (f.version.all fun v ↦ v == "proto2" || v == "proto3")
        (.unknownVersion f.name (f.version.getD ""))
      require (f.publicImports.all fun i ↦ decide (0 ≤ i) && decide (i < f.imports.length))
        (.badImportIndex f.name)
      return {
        files := [f]
        messages := ← f.allMessages.mapM fun (full, m) ↦
          linkMessage f.modern (seenBy all f) full m
        enums := ← f.allEnums.mapM fun (scope, e) ↦ linkEnum f.modern scope e
        services := ← f.services.mapM (linkService (seenBy all f) f.package)
        extensions := ← f.allExtensions.mapM fun (scope, e) ↦
          linkExtension f.modern (seenBy all f) (messagesOf all) scope e }) := by
  have hnone : (f.imports.find? fun i ↦ !all.any (·.name == i)) = none := by
    rw [List.find?_eq_none]
    intro i hi hmissing
    obtain ⟨g, hg, rfl⟩ := himports i hi
    rw [Bool.not_eq_true', ← Bool.not_eq_true, List.any_eq_true] at hmissing
    exact hmissing ⟨g, hg, beq_self_eq_true g.name⟩
  rw [linkIn, linkFile, hnone]
  rfl

section Part

variable (hall : WellFormed all) (hsub : part ⊆ all) (hpart : WellFormed part) (hf : f ∈ part)

include hall hsub hpart hf

theorem mem_seenBy_iff : d ∈ seenBy all f ↔ d ∈ seenBy part f := by
  have hvisible (name : String) : name ∈ visibleFrom all f ↔
      name ∈ visibleFrom part f ∧ ∃ g ∈ part, g.name = name :=
    mem_visibleFrom_iff hall.nodup hall.selfContained hsub hpart.selfContained hf
  rw [mem_seenBy, mem_seenBy]
  constructor
  · rintro ⟨g, hg, hd, hname⟩
    obtain ⟨hname, g', hg', heq⟩ := (hvisible g.name).1 hname
    obtain rfl := List.inj_on_of_nodup_map hall.nodup (hsub hg') hg heq
    exact ⟨g', hg', hd, hname⟩
  · rintro ⟨g, hg, hd, hname⟩
    exact ⟨g, hsub hg, hd, (hvisible g.name).2 ⟨hname, g, hg, rfl⟩⟩

theorem sameNames_seenBy : SameNames (seenBy all f) (seenBy part f) := by
  refine sameNames_of_mem_iff (fun d ↦ mem_seenBy_iff hall hsub hpart hf) fun d hd e he ↦ ?_
  exact hall.noClash.eq_of_full_eq (List.mem_filter.1 hd).1 (List.mem_filter.1 he).1

theorem lookup_messagesOf_eq (hd : d ∈ seenBy all f) (hkind : d.kind = .message) :
    (messagesOf all).lookup d.symbol.full = (messagesOf part).lookup d.symbol.full := by
  obtain ⟨g, hg, hdg, -⟩ := mem_seenBy.1 ((mem_seenBy_iff hall hsub hpart hf).1 hd)
  obtain ⟨m, hm⟩ := (FileDecl.of_mem_definitions hdg).2 hkind
  rw [lookup_eq_some hall.messages_pairwise (List.mem_flatMap.2 ⟨g, hsub hg, hm⟩),
    lookup_eq_some hpart.messages_pairwise (List.mem_flatMap.2 ⟨g, hg, hm⟩)]

/-- **A file contributes the same to a part of a collection as to the whole.** -/
theorem linkIn_congr : linkIn all f = linkIn part f := by
  have hnames := sameNames_seenBy hall hsub hpart hf
  have hextension := hnames.linkExtension_eq f.modern fun d hd hkind ↦
    lookup_messagesOf_eq hall hsub hpart hf hd hkind
  rw [linkIn_eq (hall.selfContained f (hsub hf)), linkIn_eq (hpart.selfContained f hf),
    hnames.linkMessage_eq f.modern, hnames.linkService_eq, hextension]

end Part

theorem imports_of_linkIn_eq_ok (h : linkIn all f = .ok p) :
    ∀ i ∈ f.imports, ∃ g ∈ all, g.name = i := by
  intro i hi
  rw [linkIn, linkFile] at h
  obtain ⟨-, -, h⟩ := bind_eq_ok_iff.1 h
  cases hfind : f.imports.find? fun i ↦ !all.any (·.name == i) with
  | some i =>
    rw [hfind] at h
    cases h
  | none =>
    have hthere := List.find?_eq_none.1 hfind i hi
    rw [Bool.not_eq_true, Bool.not_eq_false', List.any_eq_true] at hthere
    obtain ⟨g, hg, heq⟩ := hthere
    exact ⟨g, hg, beq_iff_eq.1 heq⟩

theorem linkIn_eq_ok (h : linkIn all f = .ok p) :
    p.files = [f] ∧ f.services.mapM (linkService (seenBy all f) f.package) = .ok p.services := by
  rw [linkIn_eq (imports_of_linkIn_eq_ok h)] at h
  obtain ⟨-, -, h⟩ := bind_eq_ok_iff.1 h
  obtain ⟨-, -, h⟩ := bind_eq_ok_iff.1 h
  obtain ⟨messages, -, h⟩ := bind_eq_ok_iff.1 h
  obtain ⟨enums, -, h⟩ := bind_eq_ok_iff.1 h
  obtain ⟨services, hservices, h⟩ := bind_eq_ok_iff.1 h
  obtain ⟨extensions, -, h⟩ := bind_eq_ok_iff.1 h
  obtain rfl := Except.ok.inj h
  exact ⟨rfl, hservices⟩

/-! ## Pools of several files -/

theorem require_eq_ok_iff {ok : Bool} {fault : LinkFault} {u : Unit} :
    require ok fault = .ok u ↔ ok = true := by
  cases ok with
  | true => exact ⟨fun _ ↦ rfl, fun _ ↦ rfl⟩
  | false =>
    constructor
    · intro h
      cases h
    · intro h
      cases h

/-- What pools put together have of a kind of which two pools put together have both parts. -/
theorem parts_foldl_append {α : Type} (part : Pool → List α)
    (hpart : ∀ p q : Pool, part (p.append q) = part p ++ part q) (ps : List Pool) (p : Pool) :
    part (ps.foldl Pool.append p) = part p ++ ps.flatMap part := by
  induction ps generalizing p with
  | nil => exact (List.append_nil _).symm
  | cons q ps ih => rw [List.foldl_cons, ih, hpart, List.flatMap_cons, List.append_assoc]

theorem services_foldl_append (ps : List Pool) (p : Pool) :
    (ps.foldl Pool.append p).services = p.services ++ ps.flatMap Pool.services :=
  parts_foldl_append Pool.services (fun _ _ ↦ rfl) ps p

/-- Files of new names are added if they have names, all different, if nothing clashes and if each
file contributes. -/
theorem add_eq_ok_iff {files : List FileDecl} (hnew : ∀ f ∈ files, ∀ g ∈ P.files, g.name ≠ f.name) :
    P.add files = .ok p ↔ (∀ f ∈ files, f.name.isEmpty = false) ∧ (files.map (·.name)).Nodup ∧
      NoClash (definitionsOf (P.files ++ files)) ∧
      ∃ ps, files.mapM (linkIn (P.files ++ files)) = .ok ps ∧ ps.foldl Pool.append P = p := by
  have hfilter : (files.filter fun f ↦ !P.files.any (·.name == f.name)) = files := by
    refine List.filter_eq_self.2 fun f hf ↦ ?_
    rw [Bool.not_eq_true', ← Bool.not_eq_true, List.any_eq_true]
    rintro ⟨g, hg, heq⟩
    exact hnew f hf g hg (beq_iff_eq.1 heq)
  have hnamed : (files.all fun f ↦ !f.name.isEmpty) = true ↔
      ∀ f ∈ files, f.name.isEmpty = false := by
    rw [List.all_eq_true]
    exact ⟨fun h f hf ↦ Bool.not_eq_eq_eq_not.1 (h f hf), fun h f hf ↦ by rw [h f hf]; rfl⟩
  rw [Pool.add]
  dsimp only
  rw [hfilter, ← hnamed, ← duplicate?_eq_none_iff]
  constructor
  · intro h
    obtain ⟨u, hu, h⟩ := bind_eq_ok_iff.1 h
    obtain ⟨v, hv, h⟩ := bind_eq_ok_iff.1 h
    refine ⟨require_eq_ok_iff.1 hu, of_decide_eq_true (require_eq_ok_iff.1 hv), ?_⟩
    cases hclash : duplicate? (definitionsOf (P.files ++ files)) with
    | some name =>
      rw [definitionsOf] at hclash
      rw [hclash] at h
      cases h
    | none =>
      rw [definitionsOf] at hclash
      rw [hclash] at h
      obtain ⟨-, -, h⟩ := bind_eq_ok_iff.1 h
      obtain ⟨ps, hps, h⟩ := bind_eq_ok_iff.1 h
      exact ⟨rfl, ps, hps, Except.ok.inj h⟩
  · rintro ⟨hall, hnodup, hclash, ps, hps, rfl⟩
    rw [definitionsOf] at hclash
    refine bind_eq_ok_iff.2 ⟨(), require_eq_ok_iff.2 hall, bind_eq_ok_iff.2
      ⟨(), require_eq_ok_iff.2 (decide_eq_true hnodup), ?_⟩⟩
    rw [hclash]
    exact bind_eq_ok_iff.2 ⟨(), rfl, bind_eq_ok_iff.2 ⟨ps, hps, rfl⟩⟩

/-- Files that link make up a collection, and the pool is put together from what each file
contributes. -/
theorem link_eq_ok (h : link all = .ok P) :
    WellFormed all ∧ ∃ ps, all.mapM (linkIn all) = .ok ps ∧ P = ps.foldl Pool.append {} := by
  obtain ⟨hnamed, hnodup, hclash, ps, hps, rfl⟩ :=
    (add_eq_ok_iff (P := {}) fun f _ ↦ List.forall_mem_nil _).1 h
  refine ⟨⟨hnodup, hnamed, fun f hf ↦ ?_, hclash⟩, ps, hps, rfl⟩
  obtain ⟨p, -, hp⟩ := exists_mem_mapM hps hf
  exact imports_of_linkIn_eq_ok hp

theorem add_eq_ok (hwell : WellFormed (P.files ++ [f])) (hp : linkIn (P.files ++ [f]) f = .ok p) :
    P.add [f] = .ok (P.append p) := by
  have hnames := hwell.nodup
  rw [List.map_append, List.nodup_append] at hnames
  refine (add_eq_ok_iff ?_).2 ⟨?_, hnames.2.1, hwell.noClash, [p], ?_, rfl⟩
  · intro g hg g' hg' heq
    exact hnames.2.2 _ (List.mem_map_of_mem hg') _ (List.mem_map_of_mem hg) heq
  · exact fun g hg ↦ hwell.named g (List.mem_append_right _ hg)
  · rw [mapM_eq_ok_iff, List.map_singleton, hp]
    rfl

/-! ## Services -/

theorem symbol_of_linkService {ds : List Definition} {package : String} {declared : ServiceDecl}
    {s : Service} (h : linkService ds package declared = .ok s) :
    s.symbol = .of package declared.name := by
  obtain ⟨methods, -, h⟩ := bind_eq_ok_iff.1 h
  obtain rfl := Except.ok.inj h
  rfl

/-- A file declares a service of a full name. -/
def FileDecl.Declares (f : FileDecl) (full : String) : Prop :=
  ∃ s ∈ f.services, qualify f.package s.name = full

theorem FileDecl.Declares.exists_service {full : String} (h : f.Declares full)
    (hp : linkIn all f = .ok p) : ∃ s ∈ p.services, s.symbol.full = full := by
  obtain ⟨declared, hdeclared, rfl⟩ := h
  obtain ⟨s, hs, hlink⟩ := exists_mem_mapM (linkIn_eq_ok hp).2 hdeclared
  exact ⟨s, hs, congrArg Symbol.full (symbol_of_linkService hlink)⟩

theorem service_unique (hall : WellFormed all) (hf : f ∈ all) (hg : g ∈ all)
    (hp : linkIn all f = .ok p) (hq : linkIn all g = .ok q) {s t : Service} (hs : s ∈ p.services)
    (ht : t ∈ q.services) (hname : s.symbol.full = t.symbol.full) : s = t := by
  obtain ⟨a, ha, hsa⟩ := exists_of_mem_mapM (linkIn_eq_ok hp).2 hs
  obtain ⟨b, hb, htb⟩ := exists_of_mem_mapM (linkIn_eq_ok hq).2 ht
  have hfull : qualify f.package a.name = qualify g.package b.name := by
    rw [symbol_of_linkService hsa, symbol_of_linkService htb] at hname
    exact hname
  -- One definition says which file it is from, so both are declared in the same file.
  have hdefinition := hall.noClash.eq_of_full_eq
    (List.mem_flatMap.2 ⟨f, hf, FileDecl.service_mem_definitions ha⟩)
    (List.mem_flatMap.2 ⟨g, hg, FileDecl.service_mem_definitions hb⟩) hfull nofun
  obtain rfl := List.inj_on_of_nodup_map hall.nodup hf hg (congrArg Definition.file hdefinition)
  have hservices := (FileDecl.pairwise_of_noClash (hall.noClash_file hf)).2
  obtain rfl := eq_of_pairwise (fun _ _ ↦ Ne.symm) hservices ha hb (not_not_intro hfull)
  rw [hsa] at htb
  exact Except.ok.inj htb

/-- **A service is found in every pool that the contribution of its file is put into.** -/
theorem service?_eq_some (hall : WellFormed all) {ps : List Pool}
    (hps : ∀ p ∈ ps, ∃ f ∈ all, linkIn all f = .ok p) (hp : p ∈ ps) {s : Service}
    (hs : s ∈ p.services) {name : String} (hname : s.symbol.full = Pool.absolute name) :
    (ps.foldl Pool.append {}).service? name = some s := by
  rw [Pool.service?, services_foldl_append, List.nil_append]
  refine find?_eq_some_of_unique (List.mem_flatMap.2 ⟨p, hp, hs⟩) (beq_iff_eq.2 hname) ?_
  intro t ht htname
  obtain ⟨q, hq, ht⟩ := List.mem_flatMap.1 ht
  obtain ⟨f, hf, hpf⟩ := hps p hp
  obtain ⟨g, hg, hqg⟩ := hps q hq
  exact service_unique hall hg hf hqg hpf ht hs ((beq_iff_eq.1 htname).trans hname.symm)

end CallCheck.Schema

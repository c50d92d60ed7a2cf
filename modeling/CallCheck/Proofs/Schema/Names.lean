import CallCheck.Proofs.Except
import CallCheck.Schema.Link
import Mathlib.Data.List.Pairwise

/-!
# What names stand for

No two definitions of a linked collection share a name, packages apart. So what a name stands for
does not depend on the order of the definitions, only on which there are, and neither does anything
that is made of what names stand for.
-/

namespace CallCheck.Schema

variable {α : Type} {d e : Definition} {ds es : List Definition} {f : FileDecl}

/-! ## Lists without clashes -/

theorem eq_of_pairwise {R : α → α → Prop} {l : List α} {a b : α} (hsymm : ∀ a b, R a b → R b a)
    (h : l.Pairwise R) (ha : a ∈ l) (hb : b ∈ l) (hnot : ¬R a b) : a = b :=
  have : Std.Symm R := ⟨hsymm⟩
  Classical.byContradiction fun hne ↦ hnot (h.forall ha hb hne)

theorem find?_eq_some_of_unique {p : α → Bool} {l : List α} {a : α} (ha : a ∈ l) (hp : p a = true)
    (hunique : ∀ b ∈ l, p b = true → b = a) : l.find? p = some a := by
  cases hfind : l.find? p with
  | none => exact absurd hp (List.find?_eq_none.1 hfind a ha)
  | some b =>
    exact congrArg some (hunique b (List.mem_of_find?_eq_some hfind) (List.find?_some hfind))

theorem find?_congr {p : α → Bool} {l l' : List α} (hmem : ∀ a, a ∈ l ↔ a ∈ l')
    (hunique : ∀ a ∈ l, ∀ b ∈ l, p a = true → p b = true → a = b) : l.find? p = l'.find? p := by
  cases hfind : l'.find? p with
  | none =>
    rw [List.find?_eq_none] at hfind ⊢
    exact fun a ha ↦ hfind a ((hmem a).1 ha)
  | some a =>
    have ha := (hmem a).2 (List.mem_of_find?_eq_some hfind)
    have hp := List.find?_some hfind
    exact find?_eq_some_of_unique ha hp fun b hb hpb ↦ hunique b hb a ha hpb hp

/-! ## Definitions that do not clash -/

theorem compatible_iff : d.compatible e = true ↔
    (d.symbol.full = e.symbol.full → d.kind = .package ∧ e.kind = .package) := by
  rw [Definition.compatible, Bool.or_eq_true, bne_iff_ne, Bool.and_eq_true, beq_iff_eq, beq_iff_eq]
  constructor
  · rintro (hne | hpackage) heq
    · exact absurd heq hne
    · exact hpackage
  · intro h
    by_cases heq : d.symbol.full = e.symbol.full
    · exact .inr (h heq)
    · exact .inl heq

theorem compatible_symm (h : d.compatible e = true) : e.compatible d = true := by
  rw [compatible_iff] at h ⊢
  exact fun heq ↦ (h heq.symm).symm

/-- No two definitions clash. -/
def NoClash (ds : List Definition) : Prop := ds.Pairwise fun d e ↦ d.compatible e = true

theorem duplicate?_eq_none_iff : duplicate? ds = none ↔ NoClash ds := by
  induction ds with
  | nil => exact ⟨fun _ ↦ .nil, fun _ ↦ rfl⟩
  | cons d ds ih =>
    rw [duplicate?, NoClash, List.pairwise_cons]
    by_cases hd : ds.all d.compatible = true
    · rw [if_pos hd, ih]
      exact ⟨fun h ↦ ⟨List.all_eq_true.1 hd, h⟩, fun h ↦ h.2⟩
    · rw [if_neg hd]
      constructor
      · intro h
        cases h
      · intro h
        exact absurd (List.all_eq_true.2 h.1) hd

theorem NoClash.eq_of_full_eq (h : NoClash ds) (hd : d ∈ ds) (he : e ∈ ds)
    (hfull : d.symbol.full = e.symbol.full) (hkind : d.kind ≠ .package) : d = e :=
  eq_of_pairwise (fun _ _ ↦ compatible_symm) h hd he fun hcompatible ↦
    hkind (compatible_iff.1 hcompatible hfull).1

/-! ## The definitions of a file -/

namespace FileDecl

theorem of_mem_definitions (h : d ∈ f.definitions) : d.file = f.name ∧
    (d.kind = .message → ∃ m, (d.symbol.full, m) ∈ f.allMessages) := by
  simp only [definitions, List.mem_append, List.mem_flatMap, List.mem_cons, List.mem_map,
    Prod.exists] at h
  rcases h with (((h | ⟨full, m, hm, (rfl | ⟨a, -, rfl⟩) | ⟨a, -, rfl⟩⟩) |
    ⟨scope, e, -, rfl | ⟨a, b, -, rfl⟩⟩) | ⟨s, -, rfl | ⟨m, -, rfl⟩⟩) | ⟨scope, e, -, rfl⟩
  · split at h
    · cases h
    · obtain ⟨n, -, rfl⟩ := List.mem_map.1 h
      exact ⟨rfl, nofun⟩
  · exact ⟨rfl, fun _ ↦ ⟨m, hm⟩⟩
  all_goals exact ⟨rfl, nofun⟩

theorem message_mem_definitions {full : String} {m : MessageDecl} (h : (full, m) ∈ f.allMessages) :
    ⟨⟨full, m.name⟩, .message, f.name⟩ ∈ f.definitions := by
  simp only [definitions, List.mem_append, List.mem_flatMap]
  exact .inl (.inl (.inl (.inr ⟨(full, m), h, .inl List.mem_cons_self⟩)))

theorem service_mem_definitions {s : ServiceDecl} (h : s ∈ f.services) :
    ⟨.of f.package s.name, .service, f.name⟩ ∈ f.definitions := by
  simp only [definitions, List.mem_append, List.mem_flatMap]
  exact .inl (.inr ⟨s, h, List.mem_cons_self⟩)

theorem pairwise_of_noClash (h : NoClash f.definitions) :
    f.allMessages.Pairwise (fun a b ↦ a.1 ≠ b.1) ∧
      f.services.Pairwise (fun s t ↦ qualify f.package s.name ≠ qualify f.package t.name) := by
  -- The definitions are those of packages, message types, enumerations, services, extensions.
  obtain ⟨h, -, -⟩ := List.pairwise_append.1 h
  obtain ⟨h, hservices, -⟩ := List.pairwise_append.1 h
  obtain ⟨h, -, -⟩ := List.pairwise_append.1 h
  obtain ⟨-, hmessages, -⟩ := List.pairwise_append.1 h
  constructor
  · refine (List.pairwise_flatMap.1 hmessages).2.imp fun {a b} hab heq ↦ ?_
    have hcompatible := hab ⟨⟨a.1, a.2.name⟩, .message, f.name⟩
      (List.mem_append_left _ List.mem_cons_self) ⟨⟨b.1, b.2.name⟩, .message, f.name⟩
      (List.mem_append_left _ List.mem_cons_self)
    cases (compatible_iff.1 hcompatible heq).1
  · refine (List.pairwise_flatMap.1 hservices).2.imp fun {s t} hst heq ↦ ?_
    have hcompatible := hst ⟨.of f.package s.name, .service, f.name⟩ List.mem_cons_self
      ⟨.of f.package t.name, .service, f.name⟩ List.mem_cons_self
    cases (compatible_iff.1 hcompatible heq).1

end FileDecl

/-! ## What is made of names -/

/-- Two lists of definitions give every name the same meaning, packages apart. -/
def SameNames (ds es : List Definition) : Prop :=
  ∀ (scope name : String) (kinds : List DefinitionKind), .package ∉ kinds →
    (Scope.mk ds scope).find? kinds name = (Scope.mk es scope).find? kinds name

/-- The meaning of a name depends only on which definitions there are. -/
theorem sameNames_of_mem_iff (hmem : ∀ d, d ∈ ds ↔ d ∈ es)
    (hunique : ∀ d ∈ ds, ∀ e ∈ ds, d.symbol.full = e.symbol.full → d.kind ≠ .package → d = e) :
    SameNames ds es := by
  intro scope name kinds hkinds
  rw [Scope.find?, Scope.find?]
  refine congrArg (List.findSome? · _) ?_
  funext full
  -- Only a package can be defined twice, and packages are not looked for.
  refine find?_congr hmem fun d hd e he hpd hpe ↦ ?_
  obtain ⟨hdfull, hdkind⟩ := Bool.and_eq_true_iff.1 hpd
  obtain ⟨hefull, -⟩ := Bool.and_eq_true_iff.1 hpe
  have hfull := (beq_iff_eq.1 hdfull).trans (beq_iff_eq.1 hefull).symm
  refine hunique d hd e he hfull fun hpackage ↦ ?_
  exact hkinds (hpackage ▸ List.contains_iff_mem.1 hdkind)

namespace SameNames

theorem resolve_eq (h : SameNames ds es) (scope name : String) {kinds : List DefinitionKind}
    (hkinds : .package ∉ kinds) :
    (Scope.mk ds scope).resolve kinds name = (Scope.mk es scope).resolve kinds name := by
  rw [Scope.resolve, Scope.resolve, h scope name kinds hkinds]

theorem typeOf_eq (h : SameNames ds es) (scope : String) :
    (Scope.mk ds scope).typeOf = (Scope.mk es scope).typeOf := by
  funext f
  rw [Scope.typeOf, Scope.typeOf]
  split
  · rw [h.resolve_eq scope _ (by decide)]
  all_goals rfl

theorem linkMessage_eq (h : SameNames ds es) (modern : Bool) :
    linkMessage modern ds = linkMessage modern es := by
  funext full m
  have hfield : linkField modern ⟨ds, full⟩ m = linkField modern ⟨es, full⟩ m := by
    funext f
    rw [linkField, linkField, h.typeOf_eq full]
  rw [linkMessage, linkMessage, hfield]

theorem linkService_eq (h : SameNames ds es) : linkService ds = linkService es := by
  funext package s
  have hresolve : (Scope.mk ds (Symbol.of package s.name).full).resolve [.message] =
      (Scope.mk es (Symbol.of package s.name).full).resolve [.message] :=
    funext fun name ↦ h.resolve_eq _ name (by decide)
  rw [linkService, linkService, hresolve]

end SameNames

theorem mem_of_resolve_eq_ok {s : Scope} {kinds : List DefinitionKind} {name : String}
    (h : s.resolve kinds name = .ok d) : d ∈ s.definitions ∧ d.kind ∈ kinds := by
  rw [Scope.resolve] at h
  cases hfind : s.find? kinds name with
  | none =>
    rw [hfind] at h
    cases h
  | some e =>
    rw [hfind] at h
    obtain rfl := Except.ok.inj h
    rw [Scope.find?] at hfind
    obtain ⟨full, -, hfull⟩ := List.exists_of_findSome?_eq_some hfind
    have hsome := List.find?_some hfull
    exact ⟨List.mem_of_find?_eq_some hfull,
      List.contains_iff_mem.1 (Bool.and_eq_true_iff.1 hsome).2⟩

/-- An extension depends on the meaning of names and on the ranges that the message types in sight
leave to extensions. -/
theorem SameNames.linkExtension_eq (h : SameNames ds es) (modern : Bool)
    {messages messages' : List (String × MessageDecl)}
    (hmessages : ∀ d ∈ ds, d.kind = .message →
      messages.lookup d.symbol.full = messages'.lookup d.symbol.full) :
    linkExtension modern ds messages = linkExtension modern es messages' := by
  funext scope f
  rw [linkExtension, linkExtension, ← h.typeOf_eq scope, ← h.resolve_eq scope _ (by decide)]
  cases hresolve : (Scope.mk ds scope).resolve [.message] (f.extendee.getD "") with
  | error fault => rfl
  | ok d =>
    obtain ⟨hd, hkind⟩ := mem_of_resolve_eq_ok hresolve
    have hlookup := hmessages d hd (List.mem_singleton.1 hkind)
    rw [ok_bind, ok_bind, hlookup]

end CallCheck.Schema

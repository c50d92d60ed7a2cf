import CallCheck.Proofs.Json.Writing
import Mathlib.Data.List.Induction
import Mathlib.Data.List.Sort
import Mathlib.Data.String.Basic

/-!
# Members in order

The members of an object put together by `Json.ofMembers` are sorted by key. Where every key is
there once, they are the members that were put in, so that the order in which they came makes no
difference.
-/

namespace CallCheck.Json

/-! ## Members one by one -/

theorem membersLegible_iff {members : List (String × Json)} :
    MembersLegible members ↔ ∀ x ∈ members, x.2.Legible := by
  induction members with
  | nil => exact iff_of_true trivial (List.forall_mem_nil _)
  | cons x rest ih => rw [MembersLegible, ih, List.forall_mem_cons]

/-! ## Members in order -/

/-- Members sorted by key, one for each key. -/
abbrev InOrder (members : List (String × Json)) : Prop := members.Pairwise fun x y ↦ x.1 < y.1

theorem mem_of_mem_insertMember {key : String} {value : Json} {members : List (String × Json)}
    {x : String × Json} (h : x ∈ insertMember key value members) :
    x = (key, value) ∨ x ∈ members := by
  induction members with
  | nil => exact .inl (List.mem_singleton.1 h)
  | cons y rest ih =>
    rw [insertMember] at h
    split at h
    · exact List.mem_cons.1 h
    · split at h
      · exact (List.mem_cons.1 h).imp_right (List.mem_cons_of_mem _)
      · rcases List.mem_cons.1 h with rfl | h
        · exact .inr List.mem_cons_self
        · exact (ih h).imp_right (List.mem_cons_of_mem _)

theorem InOrder.insertMember {members : List (String × Json)} (h : InOrder members) (key : String)
    (value : Json) : InOrder (insertMember key value members) := by
  induction members with
  | nil => exact List.pairwise_singleton _ _
  | cons y rest ih =>
    obtain ⟨hy, hrest⟩ := List.pairwise_cons.1 h
    rw [Json.insertMember]
    split
    · next hlt =>
      refine List.pairwise_cons.2 ⟨?_, h⟩
      exact List.forall_mem_cons.2 ⟨hlt, fun x hx ↦ lt_trans hlt (hy x hx)⟩
    · next hnlt =>
      split
      · next heq => exact List.pairwise_cons.2 ⟨fun x hx ↦ heq ▸ hy x hx, hrest⟩
      · next hne =>
        have hlt : y.1 < key := lt_of_le_of_ne (not_lt.1 hnlt) hne
        refine List.pairwise_cons.2 ⟨fun x hx ↦ ?_, ih hrest⟩
        rcases mem_of_mem_insertMember hx with rfl | hx
        · exact hlt
        · exact hy x hx

theorem mem_insertMember_iff {key : String} {value : Json} {members : List (String × Json)}
    (hkey : ∀ x ∈ members, x.1 ≠ key) {x : String × Json} :
    x ∈ insertMember key value members ↔ x = (key, value) ∨ x ∈ members := by
  refine ⟨mem_of_mem_insertMember, fun h ↦ ?_⟩
  induction members with
  | nil => exact List.mem_singleton.2 (h.resolve_right List.not_mem_nil)
  | cons y rest ih =>
    obtain ⟨hy, hrest⟩ := List.forall_mem_cons.1 hkey
    rw [insertMember]
    split
    · exact List.mem_cons.2 h
    · rw [List.mem_cons]
      rcases h with h | h
      · exact .inr (ih hrest (.inl h))
      · exact (List.mem_cons.1 h).imp_right fun h ↦ ih hrest (.inr h)

/-- Members in the order of their keys. -/
def arranged (members : List (String × Json)) : List (String × Json) :=
  members.foldl (fun done x ↦ insertMember x.1 x.2 done) []

theorem ofMembers_eq (members : List (String × Json)) :
    ofMembers members = .object (arranged members) := rfl

theorem arranged_concat (members : List (String × Json)) (x : String × Json) :
    arranged (members ++ [x]) = insertMember x.1 x.2 (arranged members) := by
  rw [arranged, List.foldl_append]
  rfl

theorem inOrder_arranged (members : List (String × Json)) : InOrder (arranged members) := by
  induction members using List.reverseRecOn with
  | nil => exact List.Pairwise.nil
  | append_singleton members x ih =>
    rw [arranged_concat]
    exact ih.insertMember _ _

theorem mem_arranged_iff {members : List (String × Json)} (hkeys : (members.map Prod.fst).Nodup)
    (x : String × Json) : x ∈ arranged members ↔ x ∈ members := by
  induction members using List.reverseRecOn generalizing x with
  | nil => rfl
  | append_singleton members y ih =>
    rw [List.map_append, List.nodup_append] at hkeys
    obtain ⟨hmembers, -, hne⟩ := hkeys
    have hkey : ∀ z ∈ arranged members, z.1 ≠ y.1 := fun z hz ↦
      hne z.1 (List.mem_map_of_mem ((ih hmembers z).1 hz)) y.1 List.mem_cons_self
    rw [arranged_concat, mem_insertMember_iff hkey, ih hmembers, List.mem_append,
      List.mem_singleton, or_comm]

theorem InOrder.nodup_keys {members : List (String × Json)} (h : InOrder members) :
    (members.map Prod.fst).Nodup :=
  List.pairwise_map.2 (h.imp fun hlt ↦ ne_of_lt hlt)

theorem arranged_congr {members members' : List (String × Json)}
    (hkeys : (members.map Prod.fst).Nodup) (hkeys' : (members'.map Prod.fst).Nodup)
    (h : ∀ x, x ∈ members ↔ x ∈ members') : arranged members = arranged members' := by
  have hirrefl : Std.Irrefl fun x y : String × Json ↦ x.1 < y.1 := ⟨fun x ↦ lt_irrefl x.1⟩
  have hasymm : Std.Antisymm fun x y : String × Json ↦ x.1 < y.1 :=
    ⟨fun _ _ hxy hyx ↦ absurd hyx (lt_asymm hxy)⟩
  refine (inOrder_arranged members).eq_of_mem_iff (inOrder_arranged members') fun x ↦ ?_
  rw [mem_arranged_iff hkeys, mem_arranged_iff hkeys', h]

end CallCheck.Json

import CallCheck.Json.Read
import CallCheck.Proofs.Json.Members
import CallCheck.Proofs.Numeric.Rounding

/-!
# Numbers that are read

The numbers of a document that is read are integers of 64 bits, signed or unsigned, or finite
doubles: a literal that neither fits, nor is close to a finite double, makes the text unreadable.

## Main statement

`inRange_of_parse?` and its companions: what is read, from text or from bytes, as it is written or
in canonical form, has such numbers only.

## Implementation notes

A literal is read as its first digits, an integer below `2 ^ 64`, and is scaled by a power of ten.
Multiplied by one the result is looked at and refused if it is not finite. Divided it is not looked
at, but then it cannot grow (`Within.div`).
-/

namespace CallCheck.Json

open Numeric

/-! ## Literals -/

/-- An integer of 64 bits, signed or unsigned, or a finite number. -/
def Number.InRange : Number → Prop
  | .int i => -(capacity 63 : Int) ≤ i ∧ i < capacity 64
  | .real x => x.isFinite = true

theorem accumulate_lt {significand : Nat} (h : significand < capacity 64) (ds : List Char) :
    (accumulate significand ds).1 < capacity 64 := by
  induction ds generalizing significand with
  | nil => exact h
  | cons c ds ih =>
    rw [accumulate]
    dsimp only
    split
    · next hnext => exact ih hnext
    · exact h

/-- A number with a leading bit that counts one or more. -/
def atLeastOne : Unpacked → Bool
  | .finite _ m e => decide (capacity 52 ≤ m) && decide (-52 ≤ e)
  | _ => false

theorem atLeastOne_powerOfTen : ∀ n < 309, atLeastOne (powerOfTen n).unpack = true := by
  decide +kernel

theorem exists_of_atLeastOne {u : Unpacked} (h : atLeastOne u = true) :
    ∃ negative m e, u = .finite negative m e ∧ 1 ≤ (m : ℚ) * 2 ^ e := by
  cases u with
  | nan => cases h
  | infinite negative => cases h
  | finite negative m e =>
    rw [atLeastOne, Bool.and_eq_true, decide_eq_true_iff, decide_eq_true_iff] at h
    have hm : (2 : ℚ) ^ (52 : ℤ) ≤ m := by
      rw [← Nat.cast_ofNat (R := ℤ), ← cast_capacity]
      exact_mod_cast h.1
    refine ⟨negative, m, e, rfl, ?_⟩
    calc (1 : ℚ) = 2 ^ (52 : ℤ) * 2 ^ (-52 : ℤ) := by
          rw [← zpow_add₀ two_ne_zero]
          rfl
      _ ≤ m * 2 ^ e := by
          have he : (2 : ℚ) ^ (-52 : ℤ) ≤ 2 ^ e := zpow_le_zpow_right₀ one_le_two h.2
          gcongr

theorem within_div_powerOfTen {x : Binary64} (hx : Within 64 x) {n : Nat} (hn : n < 309) :
    Within 64 (x.div (powerOfTen n)) := by
  obtain ⟨negative, m, e, hpower, hone⟩ := exists_of_atLeastOne (atLeastOne_powerOfTen n hn)
  exact hx.div (by decide) hpower hone

theorem isFinite_of_scale {x y : Binary64} (hx : Within 64 x) {exponent : Int}
    (h : scale x exponent = some y) : y.isFinite = true := by
  induction x, exponent using scale.induct with
  | case1 x exponent hlow hzero =>
    rw [scale, if_pos hlow, if_pos hzero] at h
    exact Option.some.inj h ▸ hx.isFinite
  | case2 x exponent hlow hzero ih =>
    rw [scale, if_pos hlow, if_neg hzero] at h
    exact ih (within_div_powerOfTen hx (by decide)) h
  | case3 x exponent hlow hneg =>
    rw [scale, if_neg hlow, if_pos hneg] at h
    exact Option.some.inj h ▸ (within_div_powerOfTen hx (by omega)).isFinite
  | case4 x exponent hlow hneg hhigh product hfinite =>
    rw [scale, if_neg hlow, if_neg hneg, if_pos hhigh] at h
    dsimp only at h
    rw [if_pos hfinite] at h
    exact Option.some.inj h ▸ hfinite
  | case5 x exponent hlow hneg hhigh product hfinite =>
    rw [scale, if_neg hlow, if_neg hneg, if_pos hhigh] at h
    dsimp only at h
    rw [if_neg hfinite] at h
    cases h
  | case6 x exponent hlow hneg hhigh hzero =>
    rw [scale, if_neg hlow, if_neg hneg, if_neg hhigh, if_pos hzero] at h
    exact Option.some.inj h ▸ hx.isFinite
  | case7 x exponent hlow hneg hhigh hzero =>
    rw [scale, if_neg hlow, if_neg hneg, if_neg hhigh, if_neg hzero] at h
    cases h

theorem Literal.isFinite_of_real? {l : Literal} {x : Binary64} (h : l.real? = some x) :
    x.isFinite = true := by
  obtain ⟨y, hy, rfl⟩ := Option.map_eq_some_iff.1 h
  have hlt := accumulate_lt (accumulate_lt (capacity_pos 64) l.whole) (l.fraction.getD [])
  have hwithin : Within 64 (.ofRatio false
      (accumulate (accumulate 0 l.whole).1 (l.fraction.getD [])).1 1) := by
    refine within_ofRatio false (by decide) Nat.one_pos ?_
    rw [Nat.cast_one, div_one, ← cast_capacity]
    exact_mod_cast hlt.le
  have hfinite := isFinite_of_scale hwithin hy
  split
  · exact isFinite_neg hfinite
  · exact hfinite

/-- **The number that a literal writes fits 64 bits or is finite.** -/
theorem Literal.inRange_of_number? {l : Literal} {n : Number} (h : l.number? = some n) :
    n.InRange := by
  rw [number?] at h
  split at h
  · next hunsigned =>
    obtain rfl := Option.some.inj h
    have hlt : natOfDigits 0 l.whole < capacity 64 := hunsigned.2.2.2
    exact ⟨by omega, Int.ofNat_lt.2 hlt⟩
  · split at h
    · next hsigned =>
      obtain rfl := Option.some.inj h
      have hle : natOfDigits 0 l.whole ≤ capacity 63 := hsigned.2.2.2.2
      exact ⟨by omega, by omega⟩
    · obtain ⟨x, hx, rfl⟩ := Option.map_eq_some_iff.1 h
      exact isFinite_of_real? hx

/-! ## Documents -/

mutual

/-- A document whose numbers fit 64 bits or are finite. -/
def InRange : Json → Prop
  | .null | .bool _ | .string _ => True
  | .number n => n.InRange
  | .array items => ItemsInRange items
  | .object members => MembersInRange members

/-- Items whose numbers fit 64 bits or are finite. -/
def ItemsInRange : List Json → Prop
  | [] => True
  | j :: rest => j.InRange ∧ ItemsInRange rest

/-- Members whose values have numbers that fit 64 bits or are finite. -/
def MembersInRange : List (String × Json) → Prop
  | [] => True
  | (_, v) :: rest => v.InRange ∧ MembersInRange rest

end

theorem itemsInRange_iff {items : List Json} : ItemsInRange items ↔ ∀ j ∈ items, j.InRange := by
  induction items with
  | nil => exact iff_of_true trivial (List.forall_mem_nil _)
  | cons j rest ih => rw [ItemsInRange, ih, List.forall_mem_cons]

theorem membersInRange_iff {members : List (String × Json)} :
    MembersInRange members ↔ ∀ x ∈ members, x.2.InRange := by
  induction members with
  | nil => exact iff_of_true trivial (List.forall_mem_nil _)
  | cons x rest ih => rw [MembersInRange, ih, List.forall_mem_cons]

/-- A token that is not a number out of range. -/
def Token.InRange : Token → Prop
  | .scalar j => j.InRange
  | _ => True

/-- An open container whose numbers fit 64 bits or are finite. -/
def Frame.InRange : Frame → Prop
  | .array items => ItemsInRange items
  | .object members _ => MembersInRange members

theorem inRange_of_token? {c : Char} {rest : List Char} {t : Token} {n : Nat}
    (h : token? c rest = some (t, n)) : t.InRange := by
  rw [token?.eq_def] at h
  split at h
  case h_7 =>
    obtain ⟨⟨cs, m⟩, -, heq⟩ := Option.map_eq_some_iff.1 h
    cases heq
    trivial
  case h_8 =>
    split at h
    · obtain ⟨literal, -, h⟩ := Option.bind_eq_some_iff.1 h
      obtain ⟨number, hnumber, h⟩ := Option.bind_eq_some_iff.1 h
      cases h
      exact Literal.inRange_of_number? hnumber
    · obtain ⟨⟨word, m⟩, hword, heq⟩ := Option.map_eq_some_iff.1 h
      cases heq
      rw [word?] at hword
      split at hword
      · cases hword
        trivial
      · split at hword
        · cases hword
          trivial
        · split at hword <;> cases hword
          trivial
  all_goals
    cases h
    trivial

theorem inRange_of_tokens? {cs : List Char} {ts : List Token} (h : tokens? cs = some ts) :
    ∀ t ∈ ts, t.InRange := by
  induction cs using tokens?.induct generalizing ts with
  | case1 =>
    rw [tokens?] at h
    cases h
    exact List.forall_mem_nil _
  | case2 c rest hspace ih =>
    rw [tokens?, if_pos hspace] at h
    exact ih h
  | case3 c rest hspace ih =>
    rw [tokens?, if_neg hspace] at h
    obtain ⟨⟨t, n⟩, ht, h⟩ := Option.bind_eq_some_iff.1 h
    obtain ⟨ts', hts, h⟩ := Option.bind_eq_some_iff.1 h
    cases h
    exact List.forall_mem_cons.2 ⟨inRange_of_token? ht, ih _ hts⟩

theorem ItemsInRange.push {stack : List Frame} {items : List Json} (hitems : ItemsInRange items)
    (hstack : ∀ f ∈ stack, f.InRange) : ∀ f ∈ .array items :: stack, f.InRange :=
  List.forall_mem_cons.2 ⟨hitems, hstack⟩

theorem MembersInRange.push {stack : List Frame} {members : List (String × Json)} {key : String}
    (hmembers : MembersInRange members) (hstack : ∀ f ∈ stack, f.InRange) :
    ∀ f ∈ .object members key :: stack, f.InRange :=
  List.forall_mem_cons.2 ⟨hmembers, hstack⟩

theorem ItemsInRange.cons {j : Json} {items : List Json} (hj : j.InRange)
    (hitems : ItemsInRange items) : ItemsInRange (j :: items) := ⟨hj, hitems⟩

theorem MembersInRange.cons {key : String} {v : Json} {members : List (String × Json)}
    (hv : v.InRange) (hmembers : MembersInRange members) :
    MembersInRange ((key, v) :: members) := ⟨hv, hmembers⟩

theorem ItemsInRange.array {items : List Json} (h : ItemsInRange items) :
    InRange (.array items.reverse) :=
  itemsInRange_iff.2 fun j hj ↦ itemsInRange_iff.1 h j (List.mem_reverse.1 hj)

theorem MembersInRange.object {members : List (String × Json)} (h : MembersInRange members) :
    InRange (.object members.reverse) :=
  membersInRange_iff.2 fun x hx ↦ membersInRange_iff.1 h x (List.mem_reverse.1 hx)

theorem itemsInRange_nil : ItemsInRange [] := trivial

theorem membersInRange_nil : MembersInRange [] := trivial

mutual

theorem inRange_of_value? {stack : List Frame} {ts : List Token} {j : Json}
    (hstack : ∀ f ∈ stack, f.InRange) (hts : ∀ t ∈ ts, t.InRange) (h : value? stack ts = some j) :
    j.InRange := by
  rw [value?.eq_def] at h
  split at h
  · obtain ⟨hj, hts⟩ := List.forall_mem_cons.1 hts
    exact inRange_of_close? hstack hj hts h
  · have hts := (List.forall_mem_cons.1 hts).2
    split at h
    · cases h
    · split at h
      · exact inRange_of_close? hstack itemsInRange_nil.array (List.forall_mem_cons.1 hts).2 h
      · exact inRange_of_value? (itemsInRange_nil.push hstack) hts h
  · have hts := (List.forall_mem_cons.1 hts).2
    split at h
    · cases h
    · split at h
      · exact inRange_of_close? hstack membersInRange_nil.object (List.forall_mem_cons.1 hts).2 h
      · have hts := (List.forall_mem_cons.1 (List.forall_mem_cons.1 hts).2).2
        exact inRange_of_value? (membersInRange_nil.push hstack) hts h
      · cases h
  · cases h
termination_by ts.length

theorem inRange_of_close? {stack : List Frame} {j : Json} {ts : List Token} {k : Json}
    (hstack : ∀ f ∈ stack, f.InRange) (hj : j.InRange) (hts : ∀ t ∈ ts, t.InRange)
    (h : close? stack j ts = some k) : k.InRange := by
  rw [close?.eq_def] at h
  split at h
  · exact Option.some.inj h ▸ hj
  · obtain ⟨hitems, hstack⟩ := List.forall_mem_cons.1 hstack
    have hts := (List.forall_mem_cons.1 hts).2
    exact inRange_of_value? ((ItemsInRange.cons hj hitems).push hstack) hts h
  · obtain ⟨hitems, hstack⟩ := List.forall_mem_cons.1 hstack
    have hts := (List.forall_mem_cons.1 hts).2
    exact inRange_of_close? hstack (ItemsInRange.cons hj hitems).array hts h
  · obtain ⟨hmembers, hstack⟩ := List.forall_mem_cons.1 hstack
    have hts := (List.forall_mem_cons.1 (List.forall_mem_cons.1 (List.forall_mem_cons.1 hts).2).2).2
    exact inRange_of_value? ((MembersInRange.cons hj hmembers).push hstack) hts h
  · obtain ⟨hmembers, hstack⟩ := List.forall_mem_cons.1 hstack
    have hts := (List.forall_mem_cons.1 hts).2
    exact inRange_of_close? hstack (MembersInRange.cons hj hmembers).object hts h
  · cases h
termination_by ts.length

end

/-! ## Canonical form -/

theorem membersInRange_insertMember {key : String} {value : Json} {members : List (String × Json)}
    (hvalue : value.InRange) (hmembers : MembersInRange members) :
    MembersInRange (insertMember key value members) := by
  refine membersInRange_iff.2 fun x hx ↦ ?_
  rcases mem_of_mem_insertMember hx with rfl | hx
  · exact hvalue
  · exact membersInRange_iff.1 hmembers x hx

mutual

theorem InRange.canonical : {j : Json} → j.InRange → j.canonical.InRange
  | .null, _ => trivial
  | .bool _, _ => trivial
  | .string _, _ => trivial
  | .number _, h => h
  | .array _, h => ItemsInRange.canonical h
  | .object _, h => MembersInRange.canonical h trivial

theorem ItemsInRange.canonical :
    {items : List Json} → ItemsInRange items → ItemsInRange (canonicalItems items)
  | [], _ => trivial
  | _ :: _, ⟨hj, hrest⟩ => ⟨hj.canonical, hrest.canonical⟩

theorem MembersInRange.canonical : {members done : List (String × Json)} →
    MembersInRange members → MembersInRange done → MembersInRange (canonicalMembers members done)
  | [], _, _, hdone => hdone
  | _ :: _, _, ⟨hv, hrest⟩, hdone =>
    hrest.canonical (membersInRange_insertMember hv.canonical hdone)

end

/-! ## Readers -/

theorem inRange_of_read? {s : String} {j : Json} (h : read? s = some j) : j.InRange := by
  obtain ⟨ts, hts, h⟩ := Option.bind_eq_some_iff.1 h
  exact inRange_of_value? (List.forall_mem_nil _) (inRange_of_tokens? hts) h

/-- **The numbers of a document that is read fit 64 bits or are finite.** -/
theorem inRange_of_parse? {s : String} {j : Json} (h : parse? s = some j) : j.InRange := by
  obtain ⟨k, hk, rfl⟩ := Option.map_eq_some_iff.1 h
  exact (inRange_of_read? hk).canonical

theorem inRange_of_parseBytes? {bytes : List UInt8} {j : Json} (h : parseBytes? bytes = some j) :
    j.InRange := by
  obtain ⟨s, -, hs⟩ := Option.bind_eq_some_iff.1 h
  exact inRange_of_parse? hs

end CallCheck.Json

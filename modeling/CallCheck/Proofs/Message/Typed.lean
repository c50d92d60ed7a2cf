import CallCheck.Proofs.Message.Plain
import CallCheck.Proofs.Schema.Sound

/-!
# Messages of a type

What is read as a message of a type is one: its fields are sorted by number, each has a value of its
type, and of alternatives at most one is chosen (`Message.Fits`). Everything that is proved about
messages that were read goes by induction on this.

## Main statement

`Message.fits_of_ofJson?`: what a document writes for a message type fits the type.
-/

namespace CallCheck.Message

open Numeric Schema

variable {p : Pool} {m M : MessageType} {f g : Field} {t : FieldType} {v w : Value} {k n : Nat}

/-! ## Values by field number -/

namespace Fields

variable {fields fields' : Fields}

/-- Fields sorted by number, at most one for each. -/
abbrev InOrder (fields : Fields) : Prop := fields.Pairwise fun x y ↦ x.1 < y.1

theorem get?_set : (set n v fields).get? k = if k = n then some v else fields.get? k := by
  by_cases heq : k = n
  · subst heq
    rw [if_pos rfl]
    induction fields with
    | nil => exact List.lookup_cons_self
    | cons x rest ih =>
      rw [set]
      split
      · exact List.lookup_cons_self
      · split
        · exact List.lookup_cons_self
        · next hne =>
          rw [get?, List.lookup_cons, beq_eq_false_iff_ne.2 (Ne.symm hne)]
          exact ih
  · have hne : (k == n) = false := beq_eq_false_iff_ne.2 heq
    rw [if_neg heq]
    induction fields with
    | nil => rw [set, get?, List.lookup_cons, hne, get?]
    | cons x rest ih =>
      rw [set]
      split
      · rw [get?, List.lookup_cons, hne, get?]
      · split
        · next hx => rw [get?, List.lookup_cons, hne, get?, List.lookup_cons, hx, hne]
        · rw [get?, List.lookup_cons, get?, List.lookup_cons]
          split
          · rfl
          · exact ih

theorem mem_of_mem_set {x : Nat × Value} (h : x ∈ set n v fields) : x = (n, v) ∨ x ∈ fields := by
  induction fields with
  | nil => exact .inl (List.mem_singleton.1 h)
  | cons y rest ih =>
    rw [set] at h
    split at h
    · exact List.mem_cons.1 h
    · split at h
      · exact (List.mem_cons.1 h).imp_right (List.mem_cons_of_mem _)
      · rcases List.mem_cons.1 h with rfl | h
        · exact .inr List.mem_cons_self
        · exact (ih h).imp_right (List.mem_cons_of_mem _)

theorem InOrder.set (h : InOrder fields) (n : Nat) (v : Value) : InOrder (fields.set n v) := by
  induction fields with
  | nil => exact List.pairwise_singleton _ _
  | cons y rest ih =>
    obtain ⟨hy, hrest⟩ := List.pairwise_cons.1 h
    rw [Fields.set]
    split
    · next hlt =>
      refine List.pairwise_cons.2 ⟨?_, h⟩
      exact List.forall_mem_cons.2 ⟨hlt, fun x hx ↦ hlt.trans (hy x hx)⟩
    · next hnlt =>
      split
      · next heq => exact List.pairwise_cons.2 ⟨fun x hx ↦ heq ▸ hy x hx, hrest⟩
      · next hne =>
        have hlt : y.1 < n := lt_of_le_of_ne (not_lt.1 hnlt) hne
        refine List.pairwise_cons.2 ⟨fun x hx ↦ ?_, ih hrest⟩
        rcases mem_of_mem_set hx with rfl | hx
        · exact hlt
        · exact hy x hx

theorem mem_of_get? (h : fields.get? n = some v) : (n, v) ∈ fields := mem_of_lookup h

theorem InOrder.get?_eq_some_iff (h : InOrder fields) :
    fields.get? n = some v ↔ (n, v) ∈ fields := by
  refine ⟨mem_of_get?, fun hmem ↦ ?_⟩
  induction fields with
  | nil => cases hmem
  | cons y rest ih =>
    obtain ⟨hy, hrest⟩ := List.pairwise_cons.1 h
    rw [get?, List.lookup_cons]
    rcases List.mem_cons.1 hmem with rfl | hmem
    · rw [beq_self_eq_true]
    · rw [beq_eq_false_iff_ne.2 (hy _ hmem).ne']
      exact ih hrest hmem

/-- Sorted fields are known by the values under their numbers. -/
theorem InOrder.ext (h : InOrder fields) (h' : InOrder fields')
    (heq : ∀ n, fields.get? n = fields'.get? n) : fields = fields' := by
  have hirrefl : Std.Irrefl fun x y : Nat × Value ↦ x.1 < y.1 := ⟨fun x ↦ lt_irrefl x.1⟩
  have hasymm : Std.Antisymm fun x y : Nat × Value ↦ x.1 < y.1 :=
    ⟨fun _ _ hxy hyx ↦ absurd hyx (lt_asymm hxy)⟩
  refine h.eq_of_mem_iff h' fun x ↦ ?_
  rw [← h.get?_eq_some_iff, ← h'.get?_eq_some_iff, heq]

section SetAll

variable {α : Type} {number : α → Nat} {value : α → Value} {xs : List α}

/-- The fields with values under the numbers of items, put in one after the other. -/
def setAll (number : α → Nat) (value : α → Value) (xs : List α) (fields : Fields) : Fields :=
  xs.foldl (fun fields x ↦ fields.set (number x) (value x)) fields

theorem InOrder.setAll (h : InOrder fields) : InOrder (fields.setAll number value xs) := by
  induction xs generalizing fields with
  | nil => exact h
  | cons x rest ih => exact ih (h.set _ _)

theorem get?_setAll_of_not_mem (h : ∀ x ∈ xs, number x ≠ n) :
    (fields.setAll number value xs).get? n = fields.get? n := by
  induction xs generalizing fields with
  | nil => rfl
  | cons x rest ih =>
    obtain ⟨hx, hrest⟩ := List.forall_mem_cons.1 h
    refine (ih hrest).trans ?_
    rw [get?_set, if_neg (Ne.symm hx)]

theorem get?_setAll_of_mem (number : α → Nat) (value : α → Value) (fields : Fields)
    (hapart : xs.Pairwise fun x y ↦ number x ≠ number y) {x : α} (hx : x ∈ xs) :
    (fields.setAll number value xs).get? (number x) = some (value x) := by
  induction xs generalizing fields with
  | nil => cases hx
  | cons y rest ih =>
    obtain ⟨hy, hrest⟩ := List.pairwise_cons.1 hapart
    rcases List.mem_cons.1 hx with rfl | hx
    · refine (get?_setAll_of_not_mem fun z hz ↦ (hy z hz).symm).trans ?_
      rw [get?_set, if_pos rfl]
    · exact ih _ hrest hx

end SetAll

end Fields

/-! ## Fields of message types -/

theorem mem_siblings : n ∈ M.siblings f ↔
    ∃ g ∈ M.fields, g.number = n ∧ n ≠ f.number ∧ ∃ i, f.oneof = some i ∧ g.oneof = some i := by
  rw [MessageType.siblings]
  cases hf : f.oneof with
  | none =>
    refine iff_of_false List.not_mem_nil ?_
    rintro ⟨g, -, -, -, i, hi, -⟩
    cases hi
  | some i =>
    simp only [List.mem_map, List.mem_filter, Bool.and_eq_true, beq_iff_eq, bne_iff_ne]
    constructor
    · rintro ⟨g, ⟨hg, hi, hne⟩, rfl⟩
      exact ⟨g, hg, rfl, hne, i, rfl, hi⟩
    · rintro ⟨g, hg, rfl, hne, j, hj, hi⟩
      exact ⟨g, ⟨hg, hi.trans hj.symm, hne⟩, rfl⟩

theorem field?_eq_some_iff (hnumbers : (M.fields.map (·.number)).Nodup) :
    M.field? n = some f ↔ f ∈ M.fields ∧ f.number = n := by
  constructor
  · intro h
    have hfound := List.find?_some h
    exact ⟨List.mem_of_find?_eq_some h, beq_iff_eq.1 hfound⟩
  · rintro ⟨hf, rfl⟩
    refine find?_eq_some_of_unique hf (beq_self_eq_true f.number) fun g hg heq ↦ ?_
    exact List.inj_on_of_nodup_map hnumbers hg hf (beq_iff_eq.1 heq)

theorem named?_jsonName (hnames : (M.fields.map (·.jsonName)).Nodup) (hf : f ∈ M.fields) :
    M.named? f.jsonName = some f := by
  have hfind : (M.fields.find? fun g ↦ g.jsonName == f.jsonName) = some f := by
    refine find?_eq_some_of_unique hf (beq_self_eq_true f.jsonName) fun g hg heq ↦ ?_
    exact List.inj_on_of_nodup_map hnames hg hf (beq_iff_eq.1 heq)
  rw [MessageType.named?, hfind, Option.some_or]

theorem mem_of_named? {key : String} (h : M.named? key = some f) : f ∈ M.fields := by
  rw [MessageType.named?, Option.or_eq_some_iff] at h
  rcases h with h | ⟨-, h⟩
  · exact List.mem_of_find?_eq_some h
  · exact List.mem_of_find?_eq_some h

/-! ## Values of a type -/

/-- Where a value stands: what a message type holds, a value of a type, or what a field holds. -/
inductive Place
  | body (m : MessageType)
  | single (t : FieldType)
  | field (f : Field)

/-- Of the fields that are alternatives at most one has a value. -/
def Exclusive (M : MessageType) (fields : Fields) : Prop :=
  ∀ f ∈ M.fields, (fields.get? f.number).isSome → ∀ n ∈ M.siblings f, fields.get? n = none

/-- A value fits its place. -/
inductive Fits (p : Pool) : Place → Value → Prop
  | plain {t : FieldType} {v : Value} : FitsPlain p t v → Fits p (.single t) v
  | message {name : String} {fields : Fields} :
      Fits p (.body (p.messageType name)) (.message fields []) →
      Fits p (.single (.message name)) (.message fields [])
  | body {m : MessageType} {fields : Fields} : p.IsType m → fields.InOrder →
      Exclusive (p.extended m) fields →
      (∀ x ∈ fields, ∃ f, (p.extended m).field? x.1 = some f) →
      (∀ n v f, (n, v) ∈ fields → (p.extended m).field? n = some f → Fits p (.field f) v) →
      Fits p (.body m) (.message fields [])
  | one {f : Field} {v : Value} : f.repeated = false → Fits p (.single f.type) v →
      Fits p (.field f) v
  | list {f : Field} {items : List Value} : f.repeated = true → p.entry? f = none →
      (∀ v ∈ items, Fits p (.single f.type) v) → Fits p (.field f) (.list items)
  | map {f key value : Field} {entries : List (Value × Value)} : p.entry? f = some (key, value) →
      (entries.map Prod.fst).Nodup → (∀ x ∈ entries, FitsKey key.type x.1) →
      (∀ x ∈ entries, Fits p (.single value.type) x.2) → Fits p (.field f) (.map entries)

/-- Entries whose keys and values have types, one for each key. -/
structure EntriesFit (p : Pool) (key value : FieldType) (entries : List (Value × Value)) :
    Prop where
  /-- No two entries share a key. -/
  nodup : (entries.map Prod.fst).Nodup
  /-- The keys are keys of their type. -/
  keys : ∀ x ∈ entries, FitsKey key x.1
  /-- The values are values of their type. -/
  values : ∀ x ∈ entries, Fits p (.single value) x.2

theorem FitsKey.sameKey_iff (hv : FitsKey t v) (hw : FitsKey t w) : v.sameKey w = true ↔ v = w := by
  cases hv with
  | int hbounds _ _ => cases hw <;> simp_all [Value.sameKey, bounds?]
  | bool b => cases hw <;> simp_all [Value.sameKey, bounds?]
  | string s => cases hw <;> simp_all [Value.sameKey, bounds?]

theorem mem_of_mem_putEntry {key value : Value} {entries : List (Value × Value)}
    {x : Value × Value} (h : x ∈ putEntry key value entries) : x = (key, value) ∨ x ∈ entries := by
  induction entries with
  | nil => exact .inl (List.mem_singleton.1 h)
  | cons y rest ih =>
    rw [putEntry] at h
    split at h
    · exact (List.mem_cons.1 h).imp_right (List.mem_cons_of_mem _)
    · rcases List.mem_cons.1 h with rfl | h
      · exact .inr List.mem_cons_self
      · exact (ih h).imp_right (List.mem_cons_of_mem _)

theorem EntriesFit.put {key value : FieldType} {entries : List (Value × Value)}
    (h : EntriesFit p key value entries) (hv : FitsKey key v) (hw : Fits p (.single value) w) :
    EntriesFit p key value (putEntry v w entries) where
  nodup := by
    induction entries with
    | nil => exact List.nodup_singleton _
    | cons y rest ih =>
      obtain ⟨hy, hrest⟩ := List.nodup_cons.1 h.nodup
      obtain ⟨hykey, hkeys⟩ := List.forall_mem_cons.1 h.keys
      rw [putEntry]
      split
      · next hsame =>
        rw [hykey.sameKey_iff hv] at hsame
        exact List.nodup_cons.2 ⟨hsame ▸ hy, hrest⟩
      · next hsame =>
        rw [hykey.sameKey_iff hv] at hsame
        refine List.nodup_cons.2 ⟨fun hmem ↦ ?_,
          ih ⟨hrest, hkeys, (List.forall_mem_cons.1 h.values).2⟩⟩
        obtain ⟨x, hx, heq⟩ := List.mem_map.1 hmem
        rcases mem_of_mem_putEntry hx with rfl | hx
        · exact hsame heq.symm
        · exact hy (List.mem_map.2 ⟨x, hx, heq⟩)
  keys x hx := by
    rcases mem_of_mem_putEntry hx with rfl | hx
    · exact hv
    · exact h.keys x hx
  values x hx := by
    rcases mem_of_mem_putEntry hx with rfl | hx
    · exact hw
    · exact h.values x hx

theorem isChosen_eq_false_iff {fields : Fields} : isChosen M f fields = false ↔
    (f.oneof.isSome → fields.get? f.number = none ∧ ∀ n ∈ M.siblings f, fields.get? n = none) := by
  rw [isChosen, Bool.and_eq_false_iff]
  cases f.oneof with
  | none => exact iff_of_true (.inl rfl) nofun
  | some i => simp

/-- Setting a field keeps the others in place, and if none of the alternatives it belongs to was
chosen, it is the only one. -/
theorem Fits.set (hnumbers : ((p.extended m).fields.map (·.number)).Nodup) {fields : Fields}
    (h : Fits p (.body m) (.message fields [])) (hf : f ∈ (p.extended m).fields)
    (hchosen : isChosen (p.extended m) f fields = false) (hv : Fits p (.field f) v) :
    Fits p (.body m) (.message (fields.set f.number v) []) := by
  cases h with
  | body htype horder hexclusive hthere hfits =>
    have hfind := (field?_eq_some_iff hnumbers).2 ⟨hf, rfl⟩
    have hnone := isChosen_eq_false_iff.1 hchosen
    refine .body htype (horder.set _ _) (fun g hg hset n hn ↦ ?_) (fun x hx ↦ ?_)
      fun n w g hmem hg ↦ ?_
    · obtain ⟨g', hg', hnumber, hne, i, hi, hi'⟩ := mem_siblings.1 hn
      rw [Fields.get?_set] at hset ⊢
      by_cases hgf : g.number = f.number
      · -- The field itself: its alternatives have no values.
        obtain rfl := List.inj_on_of_nodup_map hnumbers hg hf hgf
        rw [if_neg hne]
        exact (hnone (hi ▸ rfl)).2 n hn
      · rw [if_neg hgf] at hset
        by_cases hnf : n = f.number
        · -- An alternative of the field has no value.
          obtain rfl := List.inj_on_of_nodup_map hnumbers hg' hf (hnumber.trans hnf)
          have hsibling : g.number ∈ (p.extended m).siblings g' :=
            mem_siblings.2 ⟨g, hg, rfl, hgf, i, hi', hi⟩
          rw [(hnone (hi' ▸ rfl)).2 _ hsibling] at hset
          cases hset
        · rw [if_neg hnf]
          exact hexclusive g hg hset n hn
    · rcases Fields.mem_of_mem_set hx with rfl | hx
      · exact ⟨f, hfind⟩
      · exact hthere x hx
    · rcases Fields.mem_of_mem_set hmem with heq | hmem
      · obtain ⟨rfl, rfl⟩ := Prod.mk.inj heq
        obtain rfl := Option.some.inj (hfind.symm.trans hg)
        exact hv
      · exact hfits n w g hmem hg

theorem fits_empty (hm : p.IsType m) : Fits p (.body m) (.message [] []) :=
  .body hm List.Pairwise.nil (fun _ _ h ↦ nomatch h) (List.forall_mem_nil _)
    fun _ _ _ h ↦ nomatch h

/-! ## What documents write -/

theorem fits_of_readPlain? (hp : p.Sound) {j : Json}
    (h : (if f.repeated then none else (readPlain? p f.type j).map some) = some (some v)) :
    Fits p (.field f) v := by
  by_cases hrepeated : f.repeated = true
  · rw [if_pos hrepeated] at h
    cases h
  · rw [if_neg hrepeated] at h
    obtain ⟨w, hw, heq⟩ := Option.map_eq_some_iff.1 h
    obtain rfl := Option.some.inj heq
    exact .one (Bool.not_eq_true _ ▸ hrepeated) (.plain (fitsPlain_of_readPlain? hp.enumNumbers hw))

mutual

theorem fits_of_readSingle? (hp : p.Sound) (t : FieldType) : (j : Json) → ∀ v,
    readSingle? p t j = some v → Fits p (.single t) v
  | .object members, v, h => by
    cases t with
    | message name =>
      rw [readSingle?] at h
      obtain ⟨fields, hfields, rfl⟩ := Option.map_eq_some_iff.1 h
      have htype := p.isType_messageType name
      exact .message (fits_of_readMembers? hp htype members [] fields (fits_empty htype) hfields)
    | scalar s =>
      rw [readSingle?] at h
      · cases h
      · exact nofun
    | enum name =>
      rw [readSingle?] at h
      · cases h
      · exact nofun
  | .array items, v, h => by
    rw [readSingle?] at h
    cases h
  | .null, v, h => by
    rw [readSingle?] at h
    cases h
  | .bool b, v, h => by
    rw [readSingle?] at h
    exact .plain (fitsPlain_of_readPlain? hp.enumNumbers h)
  | .number n, v, h => by
    rw [readSingle?] at h
    exact .plain (fitsPlain_of_readPlain? hp.enumNumbers h)
  | .string s, v, h => by
    rw [readSingle?] at h
    exact .plain (fitsPlain_of_readPlain? hp.enumNumbers h)

theorem fits_of_readItems? (hp : p.Sound) (t : FieldType) : (items : List Json) → ∀ vs,
    readItems? p t items = some vs → ∀ v ∈ vs, Fits p (.single t) v
  | [], vs, h => by
    rw [readItems?] at h
    obtain rfl := Option.some.inj h
    exact List.forall_mem_nil _
  | j :: rest, vs, h => by
    rw [readItems?] at h
    obtain ⟨v, hv, h⟩ := Option.bind_eq_some_iff.1 h
    obtain ⟨ws, hws, h⟩ := Option.bind_eq_some_iff.1 h
    obtain rfl := Option.some.inj h
    exact List.forall_mem_cons.2
      ⟨fits_of_readSingle? hp t j v hv, fits_of_readItems? hp t rest ws hws⟩

theorem fits_of_readEntries? (hp : p.Sound) (key value : FieldType) :
    (members : List (String × Json)) → ∀ done entries, EntriesFit p key value done →
      readEntries? p key value done members = some entries → EntriesFit p key value entries
  | [], done, entries, hdone, h => by
    rw [readEntries?] at h
    exact Option.some.inj h ▸ hdone
  | (k, j) :: rest, done, entries, hdone, h => by
    rw [readEntries?] at h
    obtain ⟨v, hv, h⟩ := Option.bind_eq_some_iff.1 h
    obtain ⟨w, hw, h⟩ := Option.bind_eq_some_iff.1 h
    exact fits_of_readEntries? hp key value rest _ entries
      (hdone.put (fitsKey_of_readKey? hv) (fits_of_readSingle? hp value j w hw)) h

theorem fits_of_readField? (hp : p.Sound) (f : Field) : (j : Json) → ∀ v,
    readField? p f j = some (some v) → Fits p (.field f) v
  | .null, v, h => by
    rw [readField?] at h
    cases h
  | .array items, v, h => by
    rw [readField?, Option.ite_none_right_eq_some] at h
    obtain ⟨hrepeated, h⟩ := h
    obtain ⟨hrepeated, hentry⟩ := Bool.and_eq_true_iff.1 hrepeated
    obtain ⟨vs, hvs, heq⟩ := Option.map_eq_some_iff.1 h
    obtain rfl := Option.some.inj heq
    exact .list hrepeated (Option.isNone_iff_eq_none.1 hentry)
      (fits_of_readItems? hp f.type items vs hvs)
  | .object members, v, h => by
    rw [readField?] at h
    split at h
    · next key value hentry =>
      obtain ⟨entries, hentries, heq⟩ := Option.map_eq_some_iff.1 h
      obtain rfl := Option.some.inj heq
      have hfits := fits_of_readEntries? hp key.type value.type members [] entries
        ⟨List.nodup_nil, List.forall_mem_nil _, List.forall_mem_nil _⟩ hentries
      exact .map hentry hfits.nodup hfits.keys hfits.values
    · next name hentry hrepeated htype =>
      obtain ⟨fields, hfields, heq⟩ := Option.map_eq_some_iff.1 h
      obtain rfl := Option.some.inj heq
      have hmessage := p.isType_messageType name
      refine .one hrepeated (htype ▸ .message ?_)
      exact fits_of_readMembers? hp hmessage members [] fields (fits_empty hmessage) hfields
    · cases h
  | .bool b, v, h => by
    rw [readField?] at h
    exact fits_of_readPlain? hp h
  | .number n, v, h => by
    rw [readField?] at h
    exact fits_of_readPlain? hp h
  | .string s, v, h => by
    rw [readField?] at h
    exact fits_of_readPlain? hp h

theorem fits_of_readMembers? (hp : p.Sound) {m : MessageType} (hm : p.IsType m) :
    (members : List (String × Json)) → ∀ done fields,
      Fits p (.body m) (.message done []) →
      readMembers? p (p.extended m) done members = some fields →
      Fits p (.body m) (.message fields [])
  | [], done, fields, hdone, h => by
    rw [readMembers?] at h
    exact Option.some.inj h ▸ hdone
  | (key, j) :: rest, done, fields, hdone, h => by
    rw [readMembers?] at h
    obtain ⟨f, hf, h⟩ := Option.bind_eq_some_iff.1 h
    obtain ⟨found, hfound, h⟩ := Option.bind_eq_some_iff.1 h
    cases found with
    | none => exact fits_of_readMembers? hp hm rest done fields hdone h
    | some v =>
      dsimp only at h
      by_cases hchosen : isChosen (p.extended m) f done = true
      · rw [if_pos hchosen] at h
        cases h
      · rw [if_neg hchosen] at h
        refine fits_of_readMembers? hp hm rest _ fields ?_ h
        exact hdone.set (hp.numbers m hm) (mem_of_named? hf) (Bool.not_eq_true _ ▸ hchosen)
          (fits_of_readField? hp f j v hfound)

end

/-- **What a document writes for a message type fits the type.** -/
theorem fits_of_ofJson? (hp : p.Sound) (hm : p.IsType m) {j : Json} (h : ofJson? p m j = some v) :
    Fits p (.body m) v := by
  cases j with
  | object members =>
    obtain ⟨fields, hfields, rfl⟩ := Option.map_eq_some_iff.1 h
    exact fits_of_readMembers? hp hm members [] fields (fits_empty hm) hfields
  | null => cases h
  | bool b => cases h
  | number n => cases h
  | string s => cases h
  | array items => cases h

end CallCheck.Message

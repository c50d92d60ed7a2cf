import CallCheck.Proofs.Json.Members
import CallCheck.Proofs.Message.Typed

/-!
# Reading what was rendered

The document of a message shows every field that is set and, of the others, those that have a value
without being set (`Message.shown`). Since it is the same document for any two messages that show
the same, a message that is read from it renders the same again, although it need not be the same
message: a field that was not set is now set to what stands for nothing.

## Main statement

`Message.Fits.rendered`: what fits its place is read from its document as something that renders to
the same document, if each floating point number in it is read as itself.
-/

namespace CallCheck.Message

open Numeric Schema

variable {p : Pool} {m M : MessageType} {f g : Field} {t : FieldType} {v w : Value} {n : Nat}
  {fields fields' : Fields} {j : Json}

/-! ## What a document shows -/

/-- A field is one of the message type, not of an extension. -/
def IsOwn (m : MessageType) (f : Field) : Prop := (m.field? f.number).isSome = true

instance (m : MessageType) (f : Field) : Decidable (IsOwn m f) := instDecidableEqBool _ _

/-- What the document of a message shows for a field. -/
def shown (p : Pool) (m : MessageType) (fields : Fields) (f : Field) : Option Json :=
  match fields.get? f.number with
  | some v => if ¬IsOwn m f ∧ isOmitted p f v then none else some (writeValue p f v)
  | none =>
    if IsOwn m f ∧ f.presence = false then some (writeValue p f (defaultValue p f)) else none

/-- The members of the document of a message. -/
def members (p : Pool) (m : MessageType) (fields : Fields) : List (String × Json) :=
  writeUnset p m fields ++ writeFields p m fields

theorem toJson_eq (p : Pool) (m : MessageType) (fields : Fields) (unknown : List Wire.Record) :
    toJson p m (.message fields unknown) = .ofMembers (members p m fields) := rfl

/-- The member of the document for a field that is set. -/
def setMember? (p : Pool) (m : MessageType) (x : Nat × Value) : Option (String × Json) :=
  match (p.extended m).field? x.1 with
  | some f =>
    if (m.field? x.1).isNone && isOmitted p f x.2 then none
    else some (f.jsonName, writeValue p f x.2)
  | none => none

theorem writeFields_eq (p : Pool) (m : MessageType) (fields : Fields) :
    writeFields p m fields = fields.filterMap (setMember? p m) := by
  induction fields with
  | nil => rw [writeFields, List.filterMap_nil]
  | cons x rest ih =>
    rw [writeFields, List.filterMap_cons, setMember?]
    cases (p.extended m).field? x.1 with
    | none => exact ih
    | some f =>
      dsimp only
      split
      · exact ih
      · rw [ih]

section Members

variable (hp : p.Sound) (hm : p.IsType m)

include hp hm

theorem isOwn_iff (hf : f ∈ (p.extended m).fields) : IsOwn m f ↔ f ∈ m.fields := by
  have hnumbers := hp.numbers m hm
  rw [IsOwn, MessageType.field?, List.find?_isSome]
  constructor
  · rintro ⟨g, hg, heq⟩
    have hg' : g ∈ (p.extended m).fields := mem_extended.2 (.inl hg)
    exact List.inj_on_of_nodup_map hnumbers hg' hf (beq_iff_eq.1 heq) ▸ hg
  · exact fun hown ↦ ⟨f, hown, beq_self_eq_true f.number⟩

theorem writeUnset_eq : writeUnset p m fields =
    (m.fields.filter fun f ↦ !f.presence && (fields.get? f.number).isNone).map fun f ↦
      (f.jsonName, writeValue p f (defaultValue p f)) := by
  refine List.map_congr_left fun f hf ↦ ?_
  obtain ⟨hmem, himplicit⟩ := List.mem_filter.1 hf
  rw [Bool.and_eq_true, Bool.not_eq_true'] at himplicit
  refine congrArg (Prod.mk f.jsonName) ?_
  rw [defaultValue]
  split
  · rw [writeValue, writeEntries]
    rfl
  · split
    · rw [writeValue, writeItems]
    · next hrepeated =>
      have hsingle := (hp.implicit m hm f hmem himplicit.1).2.resolve_left hrepeated
      cases htype : f.type with
      | message name => exact absurd htype (hsingle name)
      | enum name => rw [defaultOf, writeValue, htype]
      | scalar s =>
        cases s
        case bytes =>
          rw [defaultOf, defaultScalar, writeValue]
          rfl
        all_goals simp only [defaultOf, defaultScalar, writeValue, htype]

/-- The members for fields that are set. -/
theorem setMember?_eq_some_iff {x : Nat × Value} {y : String × Json} :
    setMember? p m x = some y ↔ ∃ f ∈ (p.extended m).fields, f.number = x.1 ∧ f.jsonName = y.1 ∧
      ¬(¬IsOwn m f ∧ isOmitted p f x.2) ∧ writeValue p f x.2 = y.2 := by
  have hnumbers := hp.numbers m hm
  have homitted (f : Field) : ((m.field? f.number).isNone && isOmitted p f x.2) = true ↔
      ¬IsOwn m f ∧ isOmitted p f x.2 := by
    rw [Bool.and_eq_true, Option.isNone_iff_eq_none, ← Option.not_isSome_iff_eq_none]
    rfl
  rw [setMember?]
  constructor
  · intro h
    cases hfind : (p.extended m).field? x.1 with
    | none =>
      rw [hfind] at h
      cases h
    | some f =>
      obtain ⟨hf, hnumber⟩ := (field?_eq_some_iff hnumbers).1 hfind
      rw [hfind, Option.ite_none_left_eq_some, ← hnumber, homitted] at h
      obtain rfl := Option.some.inj h.2
      exact ⟨f, hf, hnumber, rfl, h.1, rfl⟩
  · rintro ⟨f, hf, hnumber, hname, hnot, hvalue⟩
    rw [(field?_eq_some_iff hnumbers).2 ⟨hf, hnumber⟩]
    dsimp only
    rw [← hnumber, if_neg (mt (homitted f).1 hnot), hname, hvalue]

theorem mem_members_iff (horder : fields.InOrder) {x : String × Json} :
    x ∈ members p m fields ↔
      ∃ f ∈ (p.extended m).fields, f.jsonName = x.1 ∧ shown p m fields f = some x.2 := by
  rw [members, List.mem_append, writeUnset_eq hp hm, writeFields_eq]
  constructor
  · rintro (h | h)
    · obtain ⟨f, hf, rfl⟩ := List.mem_map.1 h
      obtain ⟨hmem, himplicit⟩ := List.mem_filter.1 hf
      rw [Bool.and_eq_true, Bool.not_eq_true', Option.isNone_iff_eq_none] at himplicit
      have hmem' : f ∈ (p.extended m).fields := mem_extended.2 (.inl hmem)
      refine ⟨f, hmem', rfl, ?_⟩
      rw [shown, himplicit.2]
      exact if_pos ⟨(isOwn_iff hp hm hmem').2 hmem, himplicit.1⟩
    · obtain ⟨⟨n, v⟩, hmem, h⟩ := List.mem_filterMap.1 h
      obtain ⟨f, hf, rfl, hname, hnot, hvalue⟩ := (setMember?_eq_some_iff hp hm).1 h
      refine ⟨f, hf, hname, ?_⟩
      rw [shown, horder.get?_eq_some_iff.2 hmem]
      exact (if_neg hnot).trans (congrArg some hvalue)
  · rintro ⟨f, hf, hname, hshown⟩
    rw [shown] at hshown
    cases hget : fields.get? f.number with
    | none =>
      rw [hget] at hshown
      rw [Option.ite_none_right_eq_some] at hshown
      obtain ⟨⟨hown, hpresence⟩, hvalue⟩ := hshown
      refine .inl (List.mem_map.2 ⟨f, List.mem_filter.2 ⟨(isOwn_iff hp hm hf).1 hown, ?_⟩, ?_⟩)
      · rw [hpresence, hget]
        rfl
      · exact Prod.ext hname (Option.some.inj hvalue)
    | some v =>
      rw [hget] at hshown
      rw [Option.ite_none_left_eq_some] at hshown
      obtain ⟨hnot, hvalue⟩ := hshown
      have hset : setMember? p m (f.number, v) = some x :=
        (setMember?_eq_some_iff hp hm).2 ⟨f, hf, rfl, hname, hnot, Option.some.inj hvalue⟩
      exact .inr (List.mem_filterMap.2 ⟨(f.number, v), Fields.mem_of_get? hget, hset⟩)

theorem nodup_members (horder : fields.InOrder) : ((members p m fields).map Prod.fst).Nodup := by
  have hnames := hp.jsonNames m hm
  have hown : (m.fields.map (·.jsonName)).Nodup :=
    (List.nodup_append.1 (List.map_append ▸ hnames)).1
  rw [members, writeUnset_eq hp hm, writeFields_eq, List.map_append, List.nodup_append]
  refine ⟨?_, ?_, ?_⟩
  · rw [List.map_map]
    exact hown.sublist (List.Sublist.map _ List.filter_sublist)
  · refine List.pairwise_map.2 (List.pairwise_filterMap.2 (horder.imp ?_))
    intro x y hlt a ha b hb heq
    obtain ⟨f, hf, hfx, hfa, -⟩ := (setMember?_eq_some_iff hp hm).1 ha
    obtain ⟨g, hg, hgy, hgb, -⟩ := (setMember?_eq_some_iff hp hm).1 hb
    obtain rfl := List.inj_on_of_nodup_map hnames hf hg (hfa.trans (heq.trans hgb.symm))
    omega
  · intro a ha b hb heq
    obtain ⟨x, hx, rfl⟩ := List.mem_map.1 ha
    obtain ⟨f, hf, rfl⟩ := List.mem_map.1 hx
    obtain ⟨hmem, himplicit⟩ := List.mem_filter.1 hf
    obtain ⟨y, hy, rfl⟩ := List.mem_map.1 hb
    obtain ⟨z, hz, hy⟩ := List.mem_filterMap.1 hy
    obtain ⟨g, hg, hgz, hgy, -⟩ := (setMember?_eq_some_iff hp hm).1 hy
    have hfg : f = g := List.inj_on_of_nodup_map hnames (mem_extended.2 (.inl hmem)) hg
      (heq.trans hgy.symm)
    rw [Bool.and_eq_true, Option.isNone_iff_eq_none] at himplicit
    have hnone := himplicit.2
    rw [hfg, hgz, horder.get?_eq_some_iff.2 hz] at hnone
    cases hnone

theorem toJson_congr (horder : fields.InOrder) (horder' : fields'.InOrder)
    {unknown unknown' : List Wire.Record}
    (h : ∀ f ∈ (p.extended m).fields, shown p m fields f = shown p m fields' f) :
    toJson p m (.message fields unknown) = toJson p m (.message fields' unknown') := by
  refine congrArg Json.object (Json.arranged_congr (nodup_members hp hm horder)
    (nodup_members hp hm horder') fun x ↦ ?_)
  change x ∈ members p m fields ↔ x ∈ members p m fields'
  rw [mem_members_iff hp hm horder, mem_members_iff hp hm horder']
  constructor
  · rintro ⟨f, hf, hname, hshown⟩
    exact ⟨f, hf, hname, h f hf ▸ hshown⟩
  · rintro ⟨f, hf, hname, hshown⟩
    exact ⟨f, hf, hname, (h f hf).symm ▸ hshown⟩

end Members

/-! ## What is read from a document -/

/-- From the document of what stands in a place something is read that renders to the same
document. Of what a field with any number of values holds, none is left out either. -/
def Rendered (p : Pool) : Place → Value → Prop
  | .body m, v => (toJson p m v).Legible ∧
      ∃ w, ofJson? p m (toJson p m v).reread = some w ∧ toJson p m w = toJson p m v
  | .single t, v => ∀ f : Field, f.type = t → (writeValue p f v).Legible ∧
      ∃ w, readSingle? p t (writeValue p f v).reread = some w ∧ writeValue p f w = writeValue p f v
  | .field f, v => (writeValue p f v).Legible ∧
      ∃ w, readField? p f (writeValue p f v).reread = some (some w) ∧
        writeValue p f w = writeValue p f v ∧ (f.repeated → isDefault p f w = isDefault p f v)

theorem entry?_of_single (hf : f.repeated = false) : p.entry? f = none := by
  rw [Pool.entry?, hf]

theorem repeated_of_entry {key value : Field} (h : p.entry? f = some (key, value)) :
    f.repeated = true := by
  by_contra hnot
  rw [entry?_of_single (Bool.not_eq_true _ ▸ hnot)] at h
  cases h

theorem readField?_of_readSingle? (hf : f.repeated = false) (h : readSingle? p f.type j = some v) :
    readField? p f j = some (some v) := by
  cases j with
  | null =>
    rw [readSingle?] at h
    cases h
  | array items =>
    rw [readSingle?] at h
    cases h
  | object members =>
    cases htype : f.type with
    | message name =>
      rw [htype, readSingle?] at h
      obtain ⟨fields, hfields, rfl⟩ := Option.map_eq_some_iff.1 h
      rw [readField?, entry?_of_single hf, hf, htype]
      dsimp only
      rw [hfields]
      rfl
    | scalar s =>
      rw [htype, readSingle?] at h
      · cases h
      · intro name hname
        cases hname
    | enum name =>
      rw [htype, readSingle?] at h
      · cases h
      · intro name hname
        cases hname
  | bool b =>
    rw [readSingle?] at h
    rw [readField?, hf, if_neg Bool.false_ne_true, h, Option.map_some]
  | number n =>
    rw [readSingle?] at h
    rw [readField?, hf, if_neg Bool.false_ne_true, h, Option.map_some]
  | string s =>
    rw [readSingle?] at h
    rw [readField?, hf, if_neg Bool.false_ne_true, h, Option.map_some]

theorem FitsPlain.rendered (hp : p.Sound) (h : FitsPlain p t v) (hback : v.IsReadBack) :
    Rendered p (.single t) v := by
  rintro f rfl
  obtain ⟨hlegible, hatom, w, hw, heq⟩ := h.readsBack hp.enumNames hback
  exact ⟨hlegible, w, (readSingle?_of_isAtom hatom).trans hw, heq⟩

theorem writeValue_message {name : String} (hf : f.type = .message name)
    (unknown : List Wire.Record) :
    writeValue p f (.message fields unknown) =
      toJson p (p.messageType name) (.message fields unknown) := by
  rw [writeValue, hf, toJson]

theorem rendered_message {name : String} {unknown : List Wire.Record}
    (h : Rendered p (.body (p.messageType name)) (.message fields unknown)) :
    Rendered p (.single (.message name)) (.message fields unknown) := by
  intro f hf
  obtain ⟨hlegible, w, hw, heq⟩ := h
  rw [writeValue_message hf]
  refine ⟨hlegible, w, ?_, ?_⟩
  · rw [toJson_eq, Json.ofMembers_eq, Json.reread] at hw ⊢
    rw [readSingle?, ← hw, ofJson?]
  · obtain ⟨fields', -, rfl⟩ : ∃ fields', _ ∧ Value.message fields' [] = w := by
      rw [toJson_eq, Json.ofMembers_eq, Json.reread] at hw
      exact Option.map_eq_some_iff.1 hw
    rw [writeValue_message hf, heq]

theorem rendered_one (hf : f.repeated = false) (h : Rendered p (.single f.type) v) :
    Rendered p (.field f) v := by
  obtain ⟨hlegible, w, hw, heq⟩ := h f rfl
  refine ⟨hlegible, w, readField?_of_readSingle? hf hw, heq, fun hrepeated ↦ ?_⟩
  rw [hf] at hrepeated
  cases hrepeated

theorem rendered_list (hf : f.repeated = true) (hentry : p.entry? f = none) {items : List Value}
    (h : ∀ v ∈ items, Rendered p (.single f.type) v) : Rendered p (.field f) (.list items) := by
  have hitems : Json.ItemsLegible (writeItems p f items) ∧
      ∃ ws, readItems? p f.type (Json.rereadItems (writeItems p f items)) = some ws ∧
        writeItems p f ws = writeItems p f items ∧ ws.isEmpty = items.isEmpty := by
    induction items with
    | nil =>
      rw [writeItems, Json.rereadItems, readItems?]
      exact ⟨trivial, [], rfl, writeItems.eq_1 p f, rfl⟩
    | cons v rest ih =>
      obtain ⟨hv, hrest⟩ := List.forall_mem_cons.1 h
      obtain ⟨hlegible, w, hw, heq⟩ := hv f rfl
      obtain ⟨hlegible', ws, hws, heqs, -⟩ := ih hrest
      rw [writeItems, Json.rereadItems, readItems?, hw, hws]
      refine ⟨⟨hlegible, hlegible'⟩, w :: ws, rfl, ?_, rfl⟩
      rw [writeItems, heq, heqs]
  obtain ⟨hlegible, ws, hws, heq, hempty⟩ := hitems
  have hvalue (vs : List Value) : writeValue p f (.list vs) = .array (writeItems p f vs) :=
    writeValue.eq_8 p f vs
  refine ⟨?_, .list ws, ?_, ?_, fun _ ↦ hempty⟩
  · rw [hvalue]
    exact hlegible
  · rw [hvalue, Json.reread, readField?, hf, hentry, hws]
    rfl
  · rw [hvalue, hvalue, heq]

theorem putEntry_of_new {key value : Value} {entries : List (Value × Value)}
    (h : ∀ x ∈ entries, x.1.sameKey key = false) :
    putEntry key value entries = entries ++ [(key, value)] := by
  induction entries with
  | nil => rfl
  | cons x rest ih =>
    obtain ⟨hx, hrest⟩ := List.forall_mem_cons.1 h
    rw [putEntry, hx, if_neg Bool.false_ne_true, ih hrest, List.cons_append]

theorem FitsKey.eq_of_writeKey_eq (hv : FitsKey t v) (hw : FitsKey t w)
    (h : writeKey v = writeKey w) : v = w := by
  have hread := hv.readKey?_writeKey
  rw [h, hw.readKey?_writeKey] at hread
  exact (Option.some.inj hread).symm

theorem writeEntries_eq_map (value : Field) (entries : List (Value × Value)) :
    writeEntries p value entries = entries.map fun x ↦ (writeKey x.1, writeValue p value x.2) := by
  induction entries with
  | nil => rw [writeEntries, List.map_nil]
  | cons x rest ih => rw [writeEntries, ih, List.map_cons]

/-- Members with keys of their own are read as entries that are written as them, one after the
other. -/
theorem exists_readEntries? (key value : Field) {ms : List (String × Json)}
    (hnodup : (ms.map Prod.fst).Nodup)
    (hms : ∀ x ∈ ms, (∃ k, FitsKey key.type k ∧ writeKey k = x.1) ∧
      ∃ w, readSingle? p value.type x.2.reread = some w ∧ writeValue p value w = x.2)
    {done : List (Value × Value)} (hdone : ∀ x ∈ done, FitsKey key.type x.1)
    (hnew : ∀ x ∈ done, ∀ y ∈ ms, writeKey x.1 ≠ y.1) :
    ∃ entries, readEntries? p key.type value.type done (Json.rereadMembers ms) =
        some (done ++ entries) ∧ writeEntries p value entries = ms := by
  induction ms generalizing done with
  | nil =>
    refine ⟨[], ?_, writeEntries.eq_1 p value⟩
    rw [Json.rereadMembers, readEntries?, List.append_nil]
  | cons x rest ih =>
    obtain ⟨hx, hrest⟩ := List.nodup_cons.1 hnodup
    obtain ⟨⟨⟨k, hk, hkey⟩, w, hw, heq⟩, hms⟩ := List.forall_mem_cons.1 hms
    have hread : readKey? key.type x.1 = some k := hkey ▸ hk.readKey?_writeKey
    have hput : putEntry k w done = done ++ [(k, w)] := by
      refine putEntry_of_new fun y hy ↦ ?_
      rw [← Bool.not_eq_true, (hdone y hy).sameKey_iff hk]
      rintro rfl
      exact hnew y hy x List.mem_cons_self hkey
    have hdone' : ∀ y ∈ done ++ [(k, w)], FitsKey key.type y.1 :=
      List.forall_mem_append.2 ⟨hdone, List.forall_mem_singleton.2 hk⟩
    have hnew' : ∀ y ∈ done ++ [(k, w)], ∀ z ∈ rest, writeKey y.1 ≠ z.1 := by
      refine List.forall_mem_append.2 ⟨fun y hy z hz ↦ hnew y hy z (List.mem_cons_of_mem _ hz),
        List.forall_mem_singleton.2 fun z hz hzkey ↦ ?_⟩
      exact hx (List.mem_map.2 ⟨z, hz, hzkey.symm.trans hkey⟩)
    obtain ⟨entries, hentries, hwrite⟩ := ih hrest hms hdone' hnew'
    refine ⟨(k, w) :: entries, ?_, ?_⟩
    · rw [Json.rereadMembers, readEntries?, hread, hw]
      dsimp only [Option.bind_eq_bind, Option.bind_some]
      rw [hput, hentries, List.append_assoc]
      rfl
    · rw [writeEntries, hwrite, hkey, heq]

theorem rendered_map {key value : Field} {entries : List (Value × Value)}
    (hentry : p.entry? f = some (key, value)) (hnodup : (entries.map Prod.fst).Nodup)
    (hkeys : ∀ x ∈ entries, FitsKey key.type x.1)
    (h : ∀ x ∈ entries, Rendered p (.single value.type) x.2) :
    Rendered p (.field f) (.map entries) := by
  have hvalue (es : List (Value × Value)) :
      writeValue p f (.map es) = .ofMembers (writeEntries p value es) := by
    rw [writeValue, hentry]
    rfl
  have hwritten : ((writeEntries p value entries).map Prod.fst).Nodup := by
    rw [writeEntries_eq_map, List.map_map]
    refine List.pairwise_map.2 ((List.pairwise_map.1 hnodup).imp_of_mem fun hx hy hne heq ↦ ?_)
    exact hne ((hkeys _ hx).eq_of_writeKey_eq (hkeys _ hy) heq)
  have hmem := Json.mem_arranged_iff hwritten
  -- Every member of the object is one entry.
  have hentries (x : String × Json) (hx : x ∈ Json.arranged (writeEntries p value entries)) :
      ∃ y ∈ entries, (writeKey y.1, writeValue p value y.2) = x := by
    rw [hmem, writeEntries_eq_map] at hx
    exact List.mem_map.1 hx
  obtain ⟨ws, hws, hwrite⟩ := exists_readEntries? key value
    (Json.inOrder_arranged (writeEntries p value entries)).nodup_keys (p := p)
    (fun x hx ↦ by
      obtain ⟨y, hy, rfl⟩ := hentries x hx
      obtain ⟨-, w, hw, heq⟩ := h y hy value rfl
      exact ⟨⟨y.1, hkeys y hy, rfl⟩, w, hw, heq⟩)
    (List.forall_mem_nil _) fun x hx ↦ absurd hx List.not_mem_nil
  have harranged : Json.arranged (writeEntries p value ws) =
      Json.arranged (writeEntries p value entries) := by
    rw [hwrite]
    exact Json.arranged_congr (Json.inOrder_arranged _).nodup_keys hwritten hmem
  have hempty : ws.isEmpty = entries.isEmpty := by
    have hlength : (writeEntries p value ws).isEmpty = (writeEntries p value entries).isEmpty := by
      rw [hwrite, Bool.eq_iff_iff, List.isEmpty_iff, List.isEmpty_iff,
        List.eq_nil_iff_forall_not_mem, List.eq_nil_iff_forall_not_mem]
      exact forall_congr' fun x ↦ not_congr (hmem x)
    rwa [writeEntries_eq_map, writeEntries_eq_map, List.isEmpty_map, List.isEmpty_map] at hlength
  refine ⟨?_, .map ws, ?_, ?_, fun _ ↦ hempty⟩
  · rw [hvalue, Json.ofMembers_eq, Json.Legible, Json.membersLegible_iff]
    intro x hx
    obtain ⟨y, hy, rfl⟩ := hentries x hx
    exact (h y hy value rfl).1
  · rw [hvalue, Json.ofMembers_eq, Json.reread, readField?, hentry]
    dsimp only
    rw [hws]
    rfl
  · rw [hvalue, hvalue, Json.ofMembers_eq, Json.ofMembers_eq, harranged]

theorem isReadBack_zero :
    (Value.float ⟨0⟩).IsReadBack ∧ (Value.double ⟨0⟩).IsReadBack := by
  have hwiden : Binary32.toBinary64 ⟨0⟩ = ⟨0⟩ := by decide +kernel
  have hreread : (Json.Number.real ⟨0⟩).reread? = some (.real ⟨0⟩) := by decide +kernel
  have hfits : fitsFloat ⟨0⟩ := by decide +kernel
  have hnarrow : Binary32.ofBinary64 ⟨0⟩ = ⟨0⟩ := by decide +kernel
  refine ⟨fun _ ↦ ⟨⟨0⟩, ?_, hfits, hnarrow⟩, fun _ ↦ hreread⟩
  rw [hwiden]
  exact hreread

theorem rendered_default (hp : p.Sound) (hsingle : f.repeated = false → ∀ name,
    f.type ≠ .message name) (henum : ∀ name, f.type = .enum name → ∃ e, p.enumType? name = some e) :
    Rendered p (.field f) (defaultValue p f) := by
  rw [defaultValue]
  cases hentry : p.entry? f with
  | some x =>
    exact rendered_map hentry List.nodup_nil (List.forall_mem_nil _) (List.forall_mem_nil _)
  | none =>
    rw [Option.isSome_none, if_neg Bool.false_ne_true]
    cases hrepeated : f.repeated with
    | true => exact rendered_list hrepeated hentry (List.forall_mem_nil _)
    | false =>
      rw [if_neg Bool.false_ne_true]
      refine rendered_one hrepeated ?_
      cases htype : f.type with
      | message name => exact absurd htype (hsingle hrepeated name)
      | enum name =>
        obtain ⟨e, he⟩ := henum name htype
        refine (FitsPlain.enum he ?_).rendered hp trivial
        rw [he, Option.elim_some, EnumType.default]
        cases hvalues : e.values.head? with
        | none => decide
        | some x =>
          exact hp.enumNumbers e (List.mem_of_find?_eq_some he) x (List.mem_of_head? hvalues)
      | scalar s =>
        have hint (low high : Int) (hbounds : bounds? s = some (low, high)) :
            Rendered p (.single (.scalar s)) (.int 0) :=
          (FitsPlain.int hbounds (bounds?_le hbounds).2.1 (bounds?_le hbounds).2.2.1).rendered hp
            trivial
        cases s
        case bool => exact (FitsPlain.bool false).rendered hp trivial
        case string => exact (FitsPlain.string "").rendered hp trivial
        case bytes => exact (FitsPlain.bytes []).rendered hp trivial
        case float => exact (FitsPlain.float ⟨0⟩).rendered hp isReadBack_zero.1
        case double => exact (FitsPlain.double ⟨0⟩).rendered hp isReadBack_zero.2
        all_goals exact hint _ _ rfl

/-! ### Members -/

theorem readMembers?_eq {ms : List (String × Json)} (field : String × Json → Field)
    (value : String × Json → Value) (hread : ∀ x ∈ ms, M.named? x.1 = some (field x) ∧
      readField? p (field x) x.2.reread = some (some (value x)))
    (hapart : ms.Pairwise fun x y ↦ (field x).number ≠ (field y).number ∧
      (field x).number ∉ M.siblings (field y))
    {done : Fields} (hdone : ∀ x ∈ ms, isChosen M (field x) done = false) :
    readMembers? p M done (Json.rereadMembers ms) =
      some (done.setAll (fun x ↦ (field x).number) value ms) := by
  induction ms generalizing done with
  | nil => rw [Json.rereadMembers, readMembers?, Fields.setAll, List.foldl_nil]
  | cons x rest ih =>
    obtain ⟨⟨hnamed, hvalue⟩, hread⟩ := List.forall_mem_cons.1 hread
    obtain ⟨hx, hrest⟩ := List.pairwise_cons.1 hapart
    obtain ⟨hfree, hdone⟩ := List.forall_mem_cons.1 hdone
    rw [Json.rereadMembers, readMembers?, hnamed, Option.bind_eq_bind, Option.bind_some, hvalue,
      Option.bind_eq_bind, Option.bind_some]
    dsimp only
    rw [hfree, if_neg Bool.false_ne_true]
    refine ih hread hrest fun y hy ↦ ?_
    -- Neither the field of a later member nor an alternative to it has been set now.
    obtain ⟨hnumber, hsibling⟩ := hx y hy
    refine isChosen_eq_false_iff.2 fun honeof ↦ ?_
    obtain ⟨hnone, hnones⟩ := isChosen_eq_false_iff.1 (hdone y hy) honeof
    refine ⟨?_, fun k hk ↦ ?_⟩
    · rw [Fields.get?_set, if_neg (Ne.symm hnumber), hnone]
    · have hne : k ≠ (field x).number := by
        rintro rfl
        exact hsibling hk
      rw [Fields.get?_set, if_neg hne, hnones k hk]

/-- A member of the document of a message stands for a field, and a value of the field is read from
it. -/
structure StandsFor (p : Pool) (m : MessageType) (fields : Fields) (x : String × Json) (f : Field)
    (w : Value) : Prop where
  /-- The field is one of the type. -/
  mem : f ∈ (p.extended m).fields
  /-- The member has its name. -/
  name_eq : f.jsonName = x.1
  /-- The member is what is shown of the field. -/
  shown_eq : shown p m fields f = some x.2
  /-- The numbers in the member are read as numbers. -/
  legible : x.2.Legible
  /-- The value is read from the member. -/
  read_eq : readField? p f x.2.reread = some (some w)
  /-- The value is rendered as the member. -/
  write_eq : writeValue p f w = x.2
  /-- The value is not left out. -/
  kept : ¬IsOwn m f → isOmitted p f w = false

section Body

variable (hp : p.Sound) (hm : p.IsType m)

include hp hm

theorem isSome_of_shown (hf : f ∈ (p.extended m).fields) (h : shown p m fields f = some j)
    (honeof : f.oneof ≠ none) : (fields.get? f.number).isSome := by
  cases hget : fields.get? f.number with
  | some v => rfl
  | none =>
    rw [shown, hget, Option.ite_none_right_eq_some] at h
    exact absurd (hp.implicit m hm f ((isOwn_iff hp hm hf).1 h.1.1) h.1.2).1 honeof

theorem isOmitted_extension (hf : f ∈ (p.extended m).fields) (hown : ¬IsOwn m f)
    (h : f.repeated → isDefault p f v = false) : isOmitted p f v = false := by
  rw [isOmitted]
  cases hpresence : f.presence with
  | true => rfl
  | false =>
    have hext := (mem_extended.1 hf).resolve_left fun hmem ↦ hown ((isOwn_iff hp hm hf).2 hmem)
    rw [h (hp.extension m hm f hext hpresence)]
    rfl

theorem exists_readField?_of_shown (hf : f ∈ (p.extended m).fields)
    (h : ∀ v, fields.get? f.number = some v → Rendered p (.field f) v)
    (hshown : shown p m fields f = some j) : j.Legible ∧
      ∃ w, readField? p f j.reread = some (some w) ∧ writeValue p f w = j ∧
        (¬IsOwn m f → isOmitted p f w = false) := by
  rw [shown] at hshown
  cases hget : fields.get? f.number with
  | none =>
    rw [hget, Option.ite_none_right_eq_some] at hshown
    obtain ⟨⟨hown, hpresence⟩, hj⟩ := hshown
    obtain rfl := Option.some.inj hj
    have hmem := (isOwn_iff hp hm hf).1 hown
    have hsingle (hrepeated : f.repeated = false) (name : String) : f.type ≠ .message name :=
      (hp.implicit m hm f hmem hpresence).2.resolve_left (Bool.eq_false_iff.1 hrepeated) name
    obtain ⟨hlegible, w, hw, heq, -⟩ := rendered_default hp hsingle (hp.enums m hm f hmem)
    exact ⟨hlegible, w, hw, heq, fun hnot ↦ absurd hown hnot⟩
  | some v =>
    rw [hget, Option.ite_none_left_eq_some] at hshown
    obtain ⟨hnot, hj⟩ := hshown
    obtain rfl := Option.some.inj hj
    obtain ⟨hlegible, w, hw, heq, hdefault⟩ := h v hget
    refine ⟨hlegible, w, hw, heq, fun hown ↦ ?_⟩
    have homitted : isOmitted p f v = false := Bool.eq_false_iff.2 fun h ↦ hnot ⟨hown, h⟩
    refine isOmitted_extension hp hm hf hown fun hrepeated ↦ ?_
    rw [isOmitted, hp.repeated m hm f hf hrepeated] at homitted
    rw [hdefault hrepeated]
    exact homitted

theorem exists_standsFor (horder : fields.InOrder)
    (h : ∀ f ∈ (p.extended m).fields, ∀ v, fields.get? f.number = some v → Rendered p (.field f) v)
    {x : String × Json} (hx : x ∈ Json.arranged (members p m fields)) :
    ∃ f w, StandsFor p m fields x f w := by
  rw [Json.mem_arranged_iff (nodup_members hp hm horder), mem_members_iff hp hm horder] at hx
  obtain ⟨f, hf, hname, hshown⟩ := hx
  obtain ⟨hlegible, w, hread, hwrite, hkept⟩ := exists_readField?_of_shown hp hm hf (h f hf) hshown
  exact ⟨f, w, hf, hname, hshown, hlegible, hread, hwrite, hkept⟩

/-- Members stand for different fields that are no alternatives to each other. -/
theorem apart_of_standsFor (hexclusive : Exclusive (p.extended m) fields) {x y : String × Json}
    (hlt : x.1 < y.1) (hf : StandsFor p m fields x f v) (hg : StandsFor p m fields y g w) :
    f.number ≠ g.number ∧ f.number ∉ (p.extended m).siblings g := by
  have hnumbers := hp.numbers m hm
  constructor
  · intro heq
    obtain rfl := List.inj_on_of_nodup_map hnumbers hf.mem hg.mem heq
    rw [← hf.name_eq, ← hg.name_eq] at hlt
    exact lt_irrefl _ hlt
  · intro hsibling
    obtain ⟨f', hf', hnumber, -, i, hi, hi'⟩ := mem_siblings.1 hsibling
    obtain rfl := List.inj_on_of_nodup_map hnumbers hf' hf.mem hnumber
    have hset := isSome_of_shown hp hm hf.mem hf.shown_eq (hi' ▸ Option.some_ne_none i)
    have hset' := isSome_of_shown hp hm hg.mem hg.shown_eq (hi ▸ Option.some_ne_none i)
    rw [hexclusive g hg.mem hset' _ hsibling] at hset
    cases hset

/-- A message that holds what is read from each member shows what the document shows. -/
theorem shown_eq_of_standsFor (horder : fields.InOrder) (hf : f ∈ (p.extended m).fields)
    (hset : ∀ x ∈ Json.arranged (members p m fields), ∀ w, StandsFor p m fields x f w →
      ∃ w, StandsFor p m fields x f w ∧ fields'.get? f.number = some w)
    (hunset : shown p m fields f = none → fields'.get? f.number = none)
    (h : ∀ f ∈ (p.extended m).fields, ∀ v, fields.get? f.number = some v →
      Rendered p (.field f) v) : shown p m fields' f = shown p m fields f := by
  cases hshown : shown p m fields f with
  | some j =>
    have hx : (f.jsonName, j) ∈ Json.arranged (members p m fields) :=
      (Json.mem_arranged_iff (nodup_members hp hm horder) _).2
        ((mem_members_iff hp hm horder).2 ⟨f, hf, rfl, hshown⟩)
    obtain ⟨hlegible, w, hread, hwrite, hkept⟩ :=
      exists_readField?_of_shown hp hm hf (h f hf) hshown
    obtain ⟨u, hu, hget⟩ := hset _ hx w ⟨hf, rfl, hshown, hlegible, hread, hwrite, hkept⟩
    rw [shown, hget]
    dsimp only
    rw [if_neg, hu.write_eq]
    rintro ⟨hown, homitted⟩
    rw [hu.kept hown] at homitted
    cases homitted
  | none =>
    rw [shown, hunset hshown]
    refine if_neg fun hown ↦ ?_
    rw [shown] at hshown
    cases hget : fields.get? f.number with
    | some v =>
      rw [hget] at hshown
      dsimp only at hshown
      rw [if_neg fun h ↦ h.1 hown.1] at hshown
      cases hshown
    | none =>
      rw [hget] at hshown
      dsimp only at hshown
      rw [if_pos hown] at hshown
      cases hshown

theorem rendered_body (horder : fields.InOrder) (hexclusive : Exclusive (p.extended m) fields)
    (h : ∀ f ∈ (p.extended m).fields, ∀ v, fields.get? f.number = some v →
      Rendered p (.field f) v) : Rendered p (.body m) (.message fields []) := by
  have : Nonempty Field := ⟨fieldOr m 0⟩
  choose! field value hread using fun x hx ↦ exists_standsFor hp hm horder h (x := x) hx
  have hapart : (Json.arranged (members p m fields)).Pairwise fun x y ↦
      (field x).number ≠ (field y).number ∧
        (field x).number ∉ (p.extended m).siblings (field y) :=
    (Json.inOrder_arranged _).imp_of_mem fun hx hy hlt ↦
      apart_of_standsFor hp hm hexclusive hlt (hread _ hx) (hread _ hy)
  have hfields : readMembers? p (p.extended m) [] (Json.rereadMembers
      (Json.arranged (members p m fields))) =
        some (Fields.setAll (fun x ↦ (field x).number) value
          (Json.arranged (members p m fields)) []) := by
    refine readMembers?_eq field value (fun x hx ↦ ⟨?_, (hread x hx).read_eq⟩) hapart fun x hx ↦ ?_
    · exact (hread x hx).name_eq ▸ named?_jsonName (hp.jsonNames m hm) (hread x hx).mem
    · exact isChosen_eq_false_iff.2 fun _ ↦ ⟨rfl, fun _ _ ↦ rfl⟩
  refine ⟨?_, .message (Fields.setAll (fun x ↦ (field x).number) value
    (Json.arranged (members p m fields)) []) [], ?_, ?_⟩
  · rw [toJson_eq, Json.ofMembers_eq, Json.Legible, Json.membersLegible_iff]
    exact fun x hx ↦ (hread x hx).legible
  · rw [toJson_eq, Json.ofMembers_eq, Json.reread, ofJson?, hfields, Option.map_some]
  refine toJson_congr hp hm (Fields.InOrder.setAll .nil) horder fun f hf ↦ ?_
  refine shown_eq_of_standsFor hp hm horder hf (fun x hx w hw ↦ ?_) (fun hshown ↦ ?_) h
  · have hname := (hread x hx).name_eq.trans hw.name_eq.symm
    have hsame := List.inj_on_of_nodup_map (hp.jsonNames m hm) (hread x hx).mem hf hname
    have hget := Fields.get?_setAll_of_mem (fun x ↦ (field x).number) value []
      (hapart.imp fun hxy ↦ hxy.1) hx
    exact ⟨value x, hsame ▸ hread x hx, hsame ▸ hget⟩
  · refine Fields.get?_setAll_of_not_mem fun x hx heq ↦ ?_
    have hsame := List.inj_on_of_nodup_map (hp.numbers m hm) (hread x hx).mem hf heq
    have hshown' := (hread x hx).shown_eq
    rw [hsame, hshown] at hshown'
    cases hshown'

end Body

/-! ## Every value -/

mutual

/-- What is in a value: itself, and what is in the values it holds. -/
def Value.parts : Value → List Value
  | .message fields unknown => .message fields unknown :: partsOfFields fields
  | .list items => .list items :: partsOfItems items
  | .map entries => .map entries :: partsOfEntries entries
  | v => [v]

/-- What is in the values of any of the fields. -/
def partsOfFields : List (Nat × Value) → List Value
  | [] => []
  | (_, v) :: rest => v.parts ++ partsOfFields rest

/-- What is in any of the items. -/
def partsOfItems : List Value → List Value
  | [] => []
  | v :: rest => v.parts ++ partsOfItems rest

/-- What is in the values of any of the entries. -/
def partsOfEntries : List (Value × Value) → List Value
  | [] => []
  | (_, v) :: rest => v.parts ++ partsOfEntries rest

end

theorem partsOfFields_eq (fields : Fields) :
    partsOfFields fields = fields.flatMap fun x ↦ x.2.parts := by
  induction fields with
  | nil => rw [partsOfFields, List.flatMap_nil]
  | cons x rest ih => rw [partsOfFields, ih, List.flatMap_cons]

theorem partsOfItems_eq (items : List Value) : partsOfItems items = items.flatMap Value.parts := by
  induction items with
  | nil => rw [partsOfItems, List.flatMap_nil]
  | cons v rest ih => rw [partsOfItems, ih, List.flatMap_cons]

theorem partsOfEntries_eq (entries : List (Value × Value)) :
    partsOfEntries entries = entries.flatMap fun x ↦ x.2.parts := by
  induction entries with
  | nil => rw [partsOfEntries, List.flatMap_nil]
  | cons x rest ih => rw [partsOfEntries, ih, List.flatMap_cons]

theorem Value.self_mem_parts (v : Value) : v ∈ v.parts := by
  cases v <;> exact List.mem_cons_self

theorem Value.mem_parts_of_field {x : Nat × Value} (hx : x ∈ fields) (hw : w ∈ x.2.parts)
    (unknown : List Wire.Record) : w ∈ (Value.message fields unknown).parts := by
  rw [parts, partsOfFields_eq]
  exact List.mem_cons_of_mem _ (List.mem_flatMap.2 ⟨x, hx, hw⟩)

theorem Value.mem_parts_of_item {items : List Value} (hv : v ∈ items) (hw : w ∈ v.parts) :
    w ∈ (Value.list items).parts := by
  rw [parts, partsOfItems_eq]
  exact List.mem_cons_of_mem _ (List.mem_flatMap.2 ⟨v, hv, hw⟩)

theorem Value.mem_parts_of_entry {entries : List (Value × Value)} {x : Value × Value}
    (hx : x ∈ entries) (hw : w ∈ x.2.parts) : w ∈ (Value.map entries).parts := by
  rw [parts, partsOfEntries_eq]
  exact List.mem_cons_of_mem _ (List.mem_flatMap.2 ⟨x, hx, hw⟩)

/-- **What fits its place is read from its document as something of the same document**, if each
floating point number in it is read as itself. -/
theorem Fits.rendered (hp : p.Sound) {place : Place} (h : Fits p place v)
    (hback : ∀ w ∈ v.parts, w.IsReadBack) : Rendered p place v := by
  induction h with
  | plain h => exact h.rendered hp (hback _ (Value.self_mem_parts _))
  | message _ ih => exact rendered_message (ih hback)
  | body hm horder hexclusive _ _ ih =>
    refine rendered_body hp hm horder hexclusive fun f hf v hget ↦ ?_
    have hmem := Fields.mem_of_get? hget
    exact ih f.number v f hmem ((field?_eq_some_iff (hp.numbers _ hm)).2 ⟨hf, rfl⟩)
      fun w hw ↦ hback w (Value.mem_parts_of_field hmem hw [])
  | one hrepeated _ ih => exact rendered_one hrepeated (ih hback)
  | list hrepeated hentry _ ih =>
    refine rendered_list hrepeated hentry fun v hv ↦ ih v hv fun w hw ↦ ?_
    exact hback w (Value.mem_parts_of_item hv hw)
  | map hentry hnodup hkeys _ ih =>
    refine rendered_map hentry hnodup hkeys fun x hx ↦ ih x hx fun w hw ↦ ?_
    exact hback w (Value.mem_parts_of_entry hx hw)

end CallCheck.Message

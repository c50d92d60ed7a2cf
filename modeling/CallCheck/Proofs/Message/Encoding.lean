import CallCheck.Proofs.Message.Rendering

/-!
# Reading what was encoded

The bytes of a message hold the fields that are set, save those without presence whose value stands
for nothing. So what is read from them is not always the same message: a field set to its default is
not set any more, and a zero that was left out comes back without its sign
(`Message.unsignedMessage`). What is shown of the message is the same up to those signs.

The reader counts how deep messages are in each other and stops at a limit; entries of maps do not
count (`Value.nesting`).

## Main statement

`Message.Fits.encoded`: what fits its place is read from its bytes as something that renders to the
same document, up to the signs of zeros that are not written.
-/

namespace CallCheck.Message

open Numeric Schema Wire

variable {p : Pool} {m M : MessageType} {f g : Field} {t : FieldType} {v w : Value} {d n : Nat}
  {fields fields' : Fields}

/-! ## Nesting -/

mutual

/-- How many messages are in each other. -/
def Value.nesting : Value → Nat
  | .message fields _ => nestingOfFields fields + 1
  | .list items => nestingOfItems items
  | .map entries => nestingOfEntries entries
  | _ => 0

/-- How many messages are in each other in any of the fields. -/
def nestingOfFields : List (Nat × Value) → Nat
  | [] => 0
  | (_, v) :: rest => max v.nesting (nestingOfFields rest)

/-- How many messages are in each other in any of the items. -/
def nestingOfItems : List Value → Nat
  | [] => 0
  | v :: rest => max v.nesting (nestingOfItems rest)

/-- How many messages are in each other in any of the entries. -/
def nestingOfEntries : List (Value × Value) → Nat
  | [] => 0
  | (_, v) :: rest => max v.nesting (nestingOfEntries rest)

end

theorem nesting_le_of_mem_fields {x : Nat × Value} (h : x ∈ fields) :
    x.2.nesting ≤ nestingOfFields fields := by
  induction fields with
  | nil => cases h
  | cons y rest ih =>
    rw [nestingOfFields]
    rcases List.mem_cons.1 h with rfl | h
    · exact Nat.le_max_left _ _
    · exact (ih h).trans (Nat.le_max_right _ _)

/-! ## Zeros without a sign -/

/-- A value with the sign of a zero left out. -/
def Value.positive : Value → Value
  | .float x => if x.bits.toNat % binary32.signWeight == 0 then .float ⟨0⟩ else .float x
  | .double x => if x.isZero then .double ⟨0⟩ else .double x
  | v => v

/-- A zero with a sign. -/
def Value.IsSignedZero : Value → Prop
  | .float x => x.bits.toNat % binary32.signWeight = 0 ∧ x ≠ ⟨0⟩
  | .double x => x.isZero ∧ x ≠ ⟨0⟩
  | _ => False

instance : DecidablePred Value.IsSignedZero
  | .float _ | .double _ => inferInstanceAs (Decidable (_ ∧ _))
  | .int _ | .bool _ | .string _ | .bytes _ | .message .. | .list _ | .map _ =>
    inferInstanceAs (Decidable False)

theorem Value.positive_eq_self (h : ¬v.IsSignedZero) : v.positive = v := by
  cases v
  case float x =>
    rw [IsSignedZero, not_and, not_not] at h
    rw [positive, ite_eq_right_iff, beq_iff_eq]
    exact fun hzero ↦ congrArg Value.float (h hzero).symm
  case double x =>
    rw [IsSignedZero, not_and, not_not] at h
    rw [positive, ite_eq_right_iff]
    exact fun hzero ↦ congrArg Value.double (h hzero).symm
  all_goals rfl

/-- A value of a field, with the sign of a zero left out if the field has no presence. -/
def signless (f : Field) (v : Value) : Value := if f.presence then v else v.positive

mutual

/-- A value of a field with the signs of zeros left out in the messages and the maps in it. -/
def unsigned (p : Pool) (f : Field) : Value → Value
  | .message fields unknown =>
    let m := match f.type with
      | .message name => p.messageType name
      | _ => p.messageType ""
    .message (unsignedFields p (p.extended m) fields) unknown
  | .list items => .list (unsignedItems p f items)
  | .map entries => .map (unsignedEntries p (((p.entry? f).map (·.2)).getD f) entries)
  | v => v

/-- The values of a list, each with the signs of zeros left out in the messages in it. -/
def unsignedItems (p : Pool) (f : Field) : List Value → List Value
  | [] => []
  | v :: rest => unsigned p f v :: unsignedItems p f rest

/-- The entries of a map with the signs of zeros left out. -/
def unsignedEntries (p : Pool) (value : Field) : List (Value × Value) → List (Value × Value)
  | [] => []
  | (k, v) :: rest => (k, signless value (unsigned p value v)) :: unsignedEntries p value rest

/-- The fields of a message with the signs of zeros left out. -/
def unsignedFields (p : Pool) (m : MessageType) : List (Nat × Value) → List (Nat × Value)
  | [] => []
  | (number, v) :: rest =>
    (number, signless (fieldOr m number) (unsigned p (fieldOr m number) v)) ::
      unsignedFields p m rest

end

/-- A message of a type with the signs of zeros left out where they are not written: in the fields
without presence of the message and of those in it. -/
def unsignedMessage (p : Pool) (m : MessageType) : Value → Value
  | .message fields unknown => .message (unsignedFields p (p.extended m) fields) unknown
  | v => v

theorem unsignedFields_eq_map (m : MessageType) (fields : Fields) : unsignedFields p m fields =
    fields.map fun x ↦
      (x.1, signless (fieldOr m x.1) (unsigned p (fieldOr m x.1) x.2)) := by
  induction fields with
  | nil => rw [unsignedFields, List.map_nil]
  | cons x rest ih => rw [unsignedFields, ih, List.map_cons]

theorem unsignedItems_eq_map (f : Field) (items : List Value) :
    unsignedItems p f items = items.map (unsigned p f) := by
  induction items with
  | nil => rw [unsignedItems, List.map_nil]
  | cons v rest ih => rw [unsignedItems, ih, List.map_cons]

theorem unsignedEntries_eq_map (value : Field) (entries : List (Value × Value)) :
    unsignedEntries p value entries =
      entries.map fun x ↦ (x.1, signless value (unsigned p value x.2)) := by
  induction entries with
  | nil => rw [unsignedEntries, List.map_nil]
  | cons x rest ih => rw [unsignedEntries, ih, List.map_cons]

theorem FitsPlain.unsigned_eq (h : FitsPlain p t v) (f : Field) : unsigned p f v = v := by
  cases h <;> rfl

theorem signless_of_written (h : isOmitted p f v = false) :
    signless f (unsigned p f v) = unsigned p f v := by
  rw [signless]
  cases hpresence : f.presence with
  | true => rfl
  | false =>
    rw [if_neg Bool.false_ne_true]
    rw [isOmitted, hpresence, Bool.not_false, Bool.true_and] at h
    cases v
    case float x => exact if_neg (Bool.eq_false_iff.1 h)
    case double x => exact if_neg (Bool.eq_false_iff.1 h)
    all_goals rfl

theorem FitsPlain.positive_eq (h : FitsPlain p f.type v) (hdefault : isDefault p f v) :
    v.positive = defaultOf p f.type := by
  generalize ht : f.type = t at h
  cases h with
  | @int s low high i hbounds hlow hhigh =>
    have hzero : defaultOf p (.scalar s) = .int 0 := by
      cases s <;> first | rfl | cases hbounds
    rw [isDefault, ht, hzero] at hdefault
    rw [hzero, beq_iff_eq.1 hdefault]
    rfl
  | bool b =>
    rw [isDefault, Bool.not_eq_true'] at hdefault
    rw [hdefault]
    rfl
  | float x => exact if_pos hdefault
  | double x => exact if_pos hdefault
  | string s =>
    rw [isDefault, String.isEmpty_iff] at hdefault
    rw [hdefault]
    rfl
  | bytes bs =>
    rw [isDefault, List.isEmpty_iff] at hdefault
    rw [hdefault]
    rfl
  | @enum name e i he hi =>
    rw [isDefault, ht, defaultOf] at hdefault
    rw [defaultOf, beq_iff_eq.1 hdefault]
    rfl

theorem FitsKey.positive_eq (h : FitsKey t v) : v.positive = v := by
  cases h <;> rfl

/-- A field that is left out has the value of one that is not set, when its sign is left out. -/
theorem Fits.signless_eq (h : Fits p (.field f) v) (homitted : isOmitted p f v) :
    signless f (unsigned p f v) = defaultValue p f := by
  rw [isOmitted, Bool.and_eq_true, Bool.not_eq_true'] at homitted
  obtain ⟨hpresence, hdefault⟩ := homitted
  rw [signless, hpresence, if_neg Bool.false_ne_true, defaultValue]
  cases h with
  | one hrepeated h =>
    rw [entry?_of_single hrepeated, hrepeated]
    generalize ht : f.type = t at h
    cases h with
    | plain h =>
      subst ht
      rw [h.unsigned_eq]
      exact h.positive_eq hdefault
    | message h => cases hdefault
  | list hrepeated hentry h =>
    rw [isDefault, List.isEmpty_iff] at hdefault
    rw [hentry, hrepeated, hdefault, unsigned, unsignedItems]
    rfl
  | map hentry hnodup hkeys h =>
    rw [isDefault, List.isEmpty_iff] at hdefault
    rw [hentry, hdefault, unsigned, unsignedEntries]
    rfl

/-- Without a zero that has a sign there is nothing to leave out. -/
def Unchanged (p : Pool) : Place → Value → Prop
  | .body m, v => unsignedMessage p m v = v
  | .single t, v => ∀ f : Field, f.type = t → unsigned p f v = v
  | .field f, v => unsigned p f v = v

theorem unsignedFields_eq_self (hthere : ∀ x ∈ fields, ∃ f, M.field? x.1 = some f)
    (h : ∀ n v f, (n, v) ∈ fields → M.field? n = some f → unsigned p f v = v)
    (hunsigned : ∀ x ∈ fields, ¬x.2.IsSignedZero) : unsignedFields p M fields = fields := by
  rw [unsignedFields_eq_map]
  refine (List.map_congr_left fun x hx ↦ ?_).trans (List.map_id fields)
  obtain ⟨f, hf⟩ := hthere x hx
  rw [fieldOr, hf, Option.getD_some, h x.1 x.2 f hx hf, signless,
    Value.positive_eq_self (hunsigned x hx), ite_self]
  rfl

theorem Fits.unchanged {place : Place} (h : Fits p place v)
    (hunsigned : ∀ w ∈ v.parts, ¬w.IsSignedZero) : Unchanged p place v := by
  induction h with
  | plain h => exact fun f _ ↦ h.unsigned_eq f
  | message _ ih =>
    intro f hf
    rw [unsigned, hf]
    exact ih hunsigned
  | body _ _ _ hthere _ ih =>
    have hfields := unsignedFields_eq_self hthere
      (fun n v f hmem hfind ↦ ih n v f hmem hfind fun w hw ↦
        hunsigned w (Value.mem_parts_of_field hmem hw []))
      fun x hx ↦ hunsigned x.2 (Value.mem_parts_of_field hx x.2.self_mem_parts [])
    rw [Unchanged, unsignedMessage, hfields]
  | one _ _ ih => exact ih hunsigned _ rfl
  | list _ _ _ ih =>
    rw [Unchanged, unsigned, unsignedItems_eq_map]
    refine congrArg Value.list ((List.map_congr_left fun v hv ↦ ?_).trans (List.map_id _))
    exact ih v hv (fun w hw ↦ hunsigned w (Value.mem_parts_of_item hv hw)) _ rfl
  | map hentry _ _ _ ih =>
    rw [Unchanged, unsigned, hentry, unsignedEntries_eq_map]
    refine congrArg Value.map ((List.map_congr_left fun x hx ↦ ?_).trans (List.map_id _))
    have hx' := ih x hx fun w hw ↦ hunsigned w (Value.mem_parts_of_entry hx hw)
    have hself := hunsigned x.2 (Value.mem_parts_of_entry hx x.2.self_mem_parts)
    rw [Option.map_some, Option.getD_some, hx' _ rfl, signless, Value.positive_eq_self hself,
      ite_self]
    rfl

/-! ## What is read from bytes -/

/-- A value that is there before anything has been read holds no fields. -/
def IsFresh (before : Option Value) : Prop :=
  ∀ fields unknown, before = some (.message fields unknown) → fields = [] ∧ unknown = []

/-- The value of a field so far after one more record. -/
def mergeStep (p : Pool) (d : Nat) (f : Field) (before : Option Value) (r : Record) :
    Option (Option Value) :=
  (merged? p (merge? p d) d f before r).map some

/-- What is read of a field that is written shows what the field shows, up to the signs of zeros. A
list is not empty. -/
structure IsReadAs (p : Pool) (f : Field) (v w : Value) : Prop where
  /-- It is rendered the same. -/
  shows : writeValue p f w = writeValue p f (signless f (unsigned p f v))
  /-- It would be written. -/
  not_default : f.repeated → isDefault p f w = false

/-- From the bytes of what stands in a place something is read that renders to the same document,
up to the signs of zeros that are not written. A field that is left out has no bytes. -/
def Encoded (p : Pool) : Place → Value → Prop
  | .body m, v => (bytes p m v).length < capacity 64 → ∀ d, v.nesting ≤ d →
      ∃ fields, merge? p d (p.extended m) (bytes p m v) ([], []) = some (fields, []) ∧
        toJson p m (.message fields []) = toJson p m (unsignedMessage p m v)
  | .single t, v => ∀ f : Field, f.type = t → IsField f.number →
      (writeRecords (recordsOf p f v)).length < capacity 64 →
      ∃ r, recordsOf p f v = [r] ∧ r.field = f.number ∧ r.IsPlain ∧
        (t.isPackable → ∀ n body, r ≠ .bytes n body) ∧ ∀ d, v.nesting ≤ d →
          ∃ w, (∀ before, IsFresh before → single? p (merge? p d) t before r = some w) ∧
            writeValue p f w = writeValue p f (unsigned p f v)
  | .field f, v => IsField f.number → (f.packed → f.type.isPackable) →
      (f.repeated → f.presence = false) → isOmitted p f v = false →
      (writeRecords (recordsOf p f v)).length < capacity 64 →
      (∀ r ∈ recordsOf p f v, r.field = f.number ∧ r.IsPlain) ∧ ∀ d, v.nesting ≤ d →
        ∃ w, (recordsOf p f v).foldlM (mergeStep p d f) none = some (some w) ∧ IsReadAs p f v w

theorem writeRecords_append (rs rs' : List Record) :
    writeRecords (rs ++ rs') = writeRecords rs ++ writeRecords rs' := by
  induction rs with
  | nil => rfl
  | cons r rest ih => rw [List.cons_append, writeRecords, ih, writeRecords, List.append_assoc]

theorem writeRecords_singleton (r : Record) : writeRecords [r] = r.write := by
  rw [writeRecords, writeRecords, List.append_nil]

theorem length_body_le (n : Nat) (body : List UInt8) :
    body.length ≤ (Record.bytes n body).write.length := by
  rw [Record.write, List.length_append]
  exact Nat.le_add_left _ _

theorem FitsPlain.single?_eq (h : FitsPlain p t v) (merge : Merger) (before : Option Value)
    (r : Record) : single? p merge t before r = scalar? t r := by
  cases h <;> rfl

theorem single?_message (merge : Merger) (name : String) {before : Option Value}
    (hbefore : IsFresh before) (n : Nat) (body : List UInt8) :
    single? p merge (.message name) before (.bytes n body) =
      (merge (p.extended (p.messageType name)) body ([], [])).map fun x ↦ .message x.1 x.2 := by
  cases before with
  | none => rfl
  | some u =>
    cases u
    case message fields unknown =>
      obtain ⟨rfl, rfl⟩ := hbefore fields unknown rfl
      rfl
    all_goals rfl

theorem FitsPlain.encoded (h : FitsPlain p t v) : Encoded p (.single t) v := by
  rintro f rfl hfield hlength
  obtain ⟨r, hr, hnumber, hplain, hscalar, hbytes⟩ := h.exists_record hfield hlength
  refine ⟨r, hr, hnumber, hplain, hbytes, fun d _ ↦ ⟨v, fun before _ ↦ ?_, ?_⟩⟩
  · rw [h.single?_eq, hscalar]
  · rw [h.unsigned_eq]

theorem recordsOf_message {name : String} (hf : f.type = .message name)
    (unknown : List Record) : recordsOf p f (.message fields unknown) =
      [.bytes f.number (bytes p (p.messageType name) (.message fields unknown))] := by
  rw [recordsOf, hf, bytes]

theorem encoded_message {name : String}
    (h : Encoded p (.body (p.messageType name)) (.message fields [])) :
    Encoded p (.single (.message name)) (.message fields []) := by
  intro f hf hfield hlength
  rw [recordsOf_message hf, writeRecords_singleton] at hlength
  rw [recordsOf_message hf]
  have hbody := Nat.lt_of_le_of_lt (length_body_le f.number _) hlength
  refine ⟨_, rfl, rfl, ⟨hfield, hbody⟩, nofun, fun d hd ↦ ?_⟩
  obtain ⟨fields', hfields, heq⟩ := h hbody d hd
  refine ⟨.message fields' [], fun before hbefore ↦ ?_, ?_⟩
  · rw [single?_message _ _ hbefore, hfields, Option.map_some]
  · rw [writeValue_message hf, heq, unsigned, hf, writeValue_message hf]
    rfl

theorem merged?_one (hrepeated : f.repeated = false) (before : Option Value) (r : Record) :
    merged? p (merge? p d) d f before r = single? p (merge? p d) f.type before r := by
  unfold merged?
  rw [entry?_of_single hrepeated]
  dsimp only
  rw [hrepeated, if_neg Bool.false_ne_true]

theorem encoded_one (hrepeated : f.repeated = false) (h : Encoded p (.single f.type) v) :
    Encoded p (.field f) v := by
  intro hfield _ _ hwritten hlength
  obtain ⟨r, hr, hnumber, hplain, -, hread⟩ := h f rfl hfield hlength
  rw [hr]
  refine ⟨List.forall_mem_singleton.2 ⟨hnumber, hplain⟩, fun d hd ↦ ?_⟩
  obtain ⟨w, hw, heq⟩ := hread d hd
  refine ⟨w, ?_, ?_, fun h ↦ ?_⟩
  · rw [List.foldlM_cons, mergeStep, merged?_one hrepeated, hw none nofun]
    rfl
  · rw [signless_of_written hwritten, heq]
  · rw [hrepeated] at h
    cases h

theorem mergeStep_none_list (hrepeated : f.repeated = true) (hentry : p.entry? f = none)
    (r : Record) : mergeStep p d f none r = mergeStep p d f (some (.list [])) r := by
  unfold mergeStep merged?
  rw [hentry]
  dsimp only
  rw [hrepeated, if_pos rfl, if_pos rfl]

theorem mergeStep_item (hrepeated : f.repeated = true) (hentry : p.entry? f = none) {r : Record}
    (hbytes : f.type.isPackable → ∀ n body, r ≠ .bytes n body)
    (hr : single? p (merge? p d) f.type none r = some w) (done : List Value) :
    mergeStep p d f (some (.list done)) r = some (some (.list (done ++ [w]))) := by
  unfold mergeStep merged?
  rw [hentry]
  dsimp only
  rw [hrepeated, if_pos rfl]
  split
  · next n body =>
    have hpackable : f.type.isPackable = false :=
      Bool.eq_false_iff.2 fun h ↦ hbytes h n body rfl
    rw [hpackable, if_neg Bool.false_ne_true, hr]
    rfl
  · rw [hr]
    rfl

theorem mergeStep_packed (hrepeated : f.repeated = true) (hentry : p.entry? f = none)
    (hpackable : f.type.isPackable = true) {items : List Value}
    (h : ∀ v ∈ items, FitsPlain p f.type v) :
    mergeStep p d f none (.bytes n (packedPayload f.type items)) = some (some (.list items)) := by
  obtain ⟨ns, hns, heq⟩ := Option.map_eq_some_iff.1 (unpack?_packedPayload hpackable h)
  unfold mergeStep merged?
  rw [hentry]
  dsimp only
  rw [hrepeated, if_pos rfl, if_pos hpackable, hns]
  exact congrArg (fun vs ↦ some (some (Value.list vs))) heq

theorem exists_items (hrepeated : f.repeated = true) (hentry : p.entry? f = none)
    (hfield : IsField f.number) {items : List Value}
    (h : ∀ v ∈ items, Encoded p (.single f.type) v)
    (hlength : (writeRecords (recordsOfItems p f items)).length < capacity 64) :
    (∀ r ∈ recordsOfItems p f items, r.field = f.number ∧ r.IsPlain) ∧
      ∀ d, nestingOfItems items ≤ d → ∃ ws,
        (∀ done, (recordsOfItems p f items).foldlM (mergeStep p d f) (some (.list done)) =
          some (some (.list (done ++ ws)))) ∧
        writeItems p f ws = writeItems p f (unsignedItems p f items) ∧
          ws.length = items.length := by
  induction items with
  | nil =>
    rw [recordsOfItems]
    refine ⟨List.forall_mem_nil _, fun d _ ↦ ⟨[], fun done ↦ ?_, by rw [unsignedItems], rfl⟩⟩
    rw [List.foldlM_nil, List.append_nil]
    rfl
  | cons v rest ih =>
    obtain ⟨hv, hrest⟩ := List.forall_mem_cons.1 h
    rw [recordsOfItems, writeRecords_append, List.length_append] at hlength
    obtain ⟨r, hr, hnumber, hplain, hbytes, hread⟩ := hv f rfl hfield (by omega)
    obtain ⟨hplains, hreads⟩ := ih hrest (by omega)
    rw [recordsOfItems, hr]
    refine ⟨List.forall_mem_append.2 ⟨List.forall_mem_singleton.2 ⟨hnumber, hplain⟩, hplains⟩,
      fun d hd ↦ ?_⟩
    rw [nestingOfItems, Nat.max_le] at hd
    obtain ⟨w, hw, heq⟩ := hread d hd.1
    obtain ⟨ws, hws, heqs, hcount⟩ := hreads d hd.2
    refine ⟨w :: ws, fun done ↦ ?_, ?_, congrArg (· + 1) hcount⟩
    · rw [List.singleton_append, List.foldlM_cons,
        mergeStep_item hrepeated hentry hbytes (hw none nofun), Option.bind_eq_bind,
        Option.bind_some, hws, List.append_assoc, List.singleton_append]
    · rw [unsignedItems, writeItems, writeItems, heq, heqs]

theorem encoded_list (hrepeated : f.repeated = true) (hentry : p.entry? f = none)
    {items : List Value} (hfits : ∀ v ∈ items, Fits p (.single f.type) v)
    (h : ∀ v ∈ items, Encoded p (.single f.type) v) : Encoded p (.field f) (.list items) := by
  intro hfield hpacked himplicit hwritten hlength
  have hpresence := himplicit hrepeated
  have hnonempty : items.isEmpty = false := by
    rwa [isOmitted, hpresence, isDefault] at hwritten
  have hvalue (vs : List Value) : writeValue p f (.list vs) = .array (writeItems p f vs) :=
    writeValue.eq_8 p f vs
  have hsigns := signless_of_written hwritten
  rw [recordsOf, hnonempty, if_neg Bool.false_ne_true] at hlength ⊢
  by_cases hp : f.packed = true
  · -- All values are numbers, and they are read from the one record.
    have hpackable := hpacked hp
    have hplain : ∀ v ∈ items, FitsPlain p f.type v := by
      intro v hv
      have hv' := hfits v hv
      generalize f.type = t at hv' hpackable
      cases hv' with
      | plain h => exact h
      | message h => cases hpackable
    rw [if_pos hp] at hlength ⊢
    rw [writeRecords_singleton] at hlength
    have hbody := Nat.lt_of_le_of_lt (length_body_le f.number _) hlength
    refine ⟨List.forall_mem_singleton.2 ⟨rfl, hfield, hbody⟩, fun d _ ↦ ⟨.list items, ?_, ?_,
      fun _ ↦ hnonempty⟩⟩
    · rw [List.foldlM_cons, mergeStep_packed hrepeated hentry hpackable hplain]
      rfl
    · have hsame : items.map (unsigned p f) = items := by
        refine (List.map_congr_left fun v hv ↦ ?_).trans (List.map_id items)
        exact (hplain v hv).unsigned_eq f
      rw [hsigns, unsigned, unsignedItems_eq_map, hsame]
  · rw [if_neg hp] at hlength ⊢
    obtain ⟨hplains, hreads⟩ := exists_items hrepeated hentry hfield h hlength
    refine ⟨hplains, fun d hd ↦ ?_⟩
    obtain ⟨ws, hws, heq, hcount⟩ := hreads d hd
    refine ⟨.list ws, ?_, ?_, fun _ ↦ ?_⟩
    · have hfold := hws []
      cases hrecords : recordsOfItems p f items with
      | nil =>
        rw [hrecords] at hfold
        obtain rfl : ws = [] := by
          have hnil := Option.some.inj (Option.some.inj hfold)
          exact (Value.list.inj hnil).symm
        rw [List.length_nil, eq_comm, List.length_eq_zero_iff] at hcount
        rw [hcount] at hnonempty
        cases hnonempty
      | cons r rest =>
        rw [hrecords, List.foldlM_cons, ← mergeStep_none_list hrepeated hentry] at hfold
        rw [List.foldlM_cons, hfold, List.nil_append]
    · rw [hsigns, unsigned, hvalue, hvalue, heq]
    · rw [isDefault, ← hnonempty, Bool.eq_iff_iff, List.isEmpty_iff_length_eq_zero,
        List.isEmpty_iff_length_eq_zero, hcount]

/-! ### Maps -/

theorem entry?_eq_some {key value : Field} (h : p.entry? f = some (key, value)) :
    ∃ m, p.IsType m ∧ m.mapEntry = true ∧ (key ∈ m.fields ∧ key.number = 1) ∧
      value ∈ m.fields ∧ value.number = 2 := by
  have hfound {m : MessageType} {n : Nat} {g : Field} (hg : m.field? n = some g) :
      g ∈ m.fields ∧ g.number = n := by
    have hsome := List.find?_some hg
    exact ⟨List.mem_of_find?_eq_some hg, beq_iff_eq.1 hsome⟩
  unfold Pool.entry? at h
  split at h
  · next name hrepeated htype =>
    rw [Option.ite_none_right_eq_some] at h
    obtain ⟨hentry, h⟩ := h
    obtain ⟨k, hk, h⟩ := Option.bind_eq_some_iff.1 h
    obtain ⟨v, hv, h⟩ := Option.bind_eq_some_iff.1 h
    obtain ⟨rfl, rfl⟩ := Prod.mk.inj (Option.some.inj h)
    exact ⟨p.messageType name, p.isType_messageType name, hentry, hfound hk, hfound hv⟩
  · cases h

theorem defaultValue_of_single (h : f.repeated = false) :
    defaultValue p f = defaultOf p f.type := by
  rw [defaultValue, entry?_of_single h, h]
  rfl

theorem isFresh_default (h : f.repeated = false) : IsFresh (some (defaultValue p f)) := by
  intro fields unknown heq
  rw [defaultValue_of_single h] at heq
  cases htype : f.type with
  | message name =>
    rw [htype] at heq
    obtain ⟨rfl, rfl⟩ := Value.message.inj (Option.some.inj heq)
    exact ⟨rfl, rfl⟩
  | enum name =>
    rw [htype] at heq
    cases heq
  | scalar s =>
    rw [htype] at heq
    cases s <;> cases heq

/-- The records of a field, if it is written. -/
def keptRecords (p : Pool) (f : Field) (v : Value) : List Record :=
  if isOmitted p f v then [] else recordsOf p f v

/-- The records of an entry of a map. -/
def entryRecords (p : Pool) (key value : Field) (k v : Value) : List Record :=
  keptRecords p key k ++ keptRecords p value v

/-- The entry so far after one more record. -/
def entryStep (p : Pool) (d : Nat) (key value : Field) (x : Value × Value) (r : Record) :
    Option (Value × Value) :=
  match r.field with
  | 1 => (single? p (merge? p d) key.type (some x.1) r).map (·, x.2)
  | 2 => (single? p (merge? p d) value.type (some x.2) r).map (x.1, ·)
  | _ => some x

theorem entry?_eq (key value : Field) (rs : List Record) :
    entry? p (merge? p d) key value rs =
      rs.foldlM (entryStep p d key value) (defaultValue p key, defaultValue p value) := rfl

theorem isField_of_le {n : Nat} (hpos : 0 < n) (hle : n ≤ 2) : IsField n := by
  have hcapacity : 2 < capacity 29 := by decide
  exact ⟨hpos, Nat.lt_of_le_of_lt hle hcapacity⟩

theorem foldlM_keyRecords {key : Field} (hsingle : key.repeated = false) (hnumber : key.number = 1)
    {k : Value} (hk : FitsKey key.type k)
    (hlength : (writeRecords (keptRecords p key k)).length < capacity 64) :
    (∀ r ∈ keptRecords p key k, r.IsPlain) ∧ ∀ d value u,
      (keptRecords p key k).foldlM (entryStep p d key value) (defaultValue p key, u) =
        some (k, u) := by
  rw [keptRecords] at hlength ⊢
  by_cases homitted : isOmitted p key k = true
  · rw [if_pos homitted]
    refine ⟨List.forall_mem_nil _, fun d value u ↦ ?_⟩
    rw [isOmitted, Bool.and_eq_true] at homitted
    rw [List.foldlM_nil, defaultValue_of_single hsingle,
      ← hk.fitsPlain.positive_eq homitted.2, hk.positive_eq]
    rfl
  · rw [if_neg homitted] at hlength ⊢
    obtain ⟨r, hr, hfield, hplain, hscalar, -⟩ := (hk.fitsPlain (p := p)).exists_record
      (hnumber.symm ▸ isField_of_le (by decide) (by decide)) hlength
    rw [hr]
    refine ⟨List.forall_mem_singleton.2 hplain, fun d value u ↦ ?_⟩
    rw [List.foldlM_cons, entryStep, hfield, hnumber]
    dsimp only
    rw [(hk.fitsPlain (p := p)).single?_eq, hscalar]
    rfl

theorem exists_foldlM_valueRecords {value : Field} (hsingle : value.repeated = false)
    (hnumber : value.number = 2) (hfits : Fits p (.single value.type) v)
    (hv : Encoded p (.single value.type) v)
    (hlength : (writeRecords (keptRecords p value v)).length < capacity 64) :
    (∀ r ∈ keptRecords p value v, r.IsPlain) ∧ ∀ d, v.nesting ≤ d → ∃ w,
      (∀ key k, (keptRecords p value v).foldlM (entryStep p d key value)
        (k, defaultValue p value) = some (k, w)) ∧
      writeValue p value w = writeValue p value (signless value (unsigned p value v)) := by
  rw [keptRecords] at hlength ⊢
  by_cases homitted : isOmitted p value v = true
  · rw [if_pos homitted]
    refine ⟨List.forall_mem_nil _, fun d _ ↦ ⟨defaultValue p value, fun _ _ ↦ rfl, ?_⟩⟩
    rw [(Fits.one hsingle hfits).signless_eq homitted]
  · rw [if_neg homitted] at hlength ⊢
    obtain ⟨r, hr, hfield, hplain, -, hread⟩ := hv value rfl
      (hnumber.symm ▸ isField_of_le (by decide) (by decide)) hlength
    rw [hr]
    refine ⟨List.forall_mem_singleton.2 hplain, fun d hd ↦ ?_⟩
    obtain ⟨w, hw, heq⟩ := hread d hd
    refine ⟨w, fun key k ↦ ?_, ?_⟩
    · rw [List.foldlM_cons, entryStep, hfield, hnumber]
      dsimp only
      rw [hw _ (isFresh_default hsingle)]
      rfl
    · rw [signless_of_written (Bool.eq_false_iff.2 homitted), heq]

theorem exists_entry (hp : p.Sound) {key value : Field} (hentry : p.entry? f = some (key, value))
    {k : Value} (hk : FitsKey key.type k) (hfits : Fits p (.single value.type) v)
    (hv : Encoded p (.single value.type) v)
    (hlength : (writeRecords (entryRecords p key value k v)).length < capacity 64) :
    (∀ r ∈ entryRecords p key value k v, r.IsPlain) ∧ ∀ d, v.nesting ≤ d →
      ∃ w, entry? p (merge? p d) key value (entryRecords p key value k v) = some (k, w) ∧
        writeValue p value w = writeValue p value (signless value (unsigned p value v)) := by
  obtain ⟨m, hm, hmap, ⟨hkey, hone⟩, hvalue, htwo⟩ := entry?_eq_some hentry
  rw [entryRecords, writeRecords_append, List.length_append] at hlength
  obtain ⟨hkeyplain, hkeyread⟩ :=
    foldlM_keyRecords (p := p) (hp.entries m hm hmap key hkey) hone hk (by omega)
  obtain ⟨hvalueplain, hvalueread⟩ := exists_foldlM_valueRecords
    (hp.entries m hm hmap value hvalue) htwo hfits hv (by omega)
  refine ⟨List.forall_mem_append.2 ⟨hkeyplain, hvalueplain⟩, fun d hd ↦ ?_⟩
  obtain ⟨w, hw, heq⟩ := hvalueread d hd
  refine ⟨w, ?_, heq⟩
  rw [entry?_eq, entryRecords, List.foldlM_append, hkeyread, Option.bind_eq_bind,
    Option.bind_some, hw]

theorem mergeStep_none_map {key value : Field} (hentry : p.entry? f = some (key, value))
    (r : Record) : mergeStep p d f none r = mergeStep p d f (some (.map [])) r := by
  unfold mergeStep merged?
  rw [hentry]

theorem mergeStep_entry {key value : Field} (hentry : p.entry? f = some (key, value))
    {rs : List Record} (hplain : ∀ r ∈ rs, r.IsPlain) {k : Value}
    (hr : entry? p (merge? p d) key value rs = some (k, w)) {done : List (Value × Value)}
    (hnew : ∀ x ∈ done, x.1.sameKey k = false) :
    mergeStep p d f (some (.map done)) (.bytes n (writeRecords rs)) =
      some (some (.map (done ++ [(k, w)]))) := by
  unfold mergeStep merged?
  rw [hentry]
  dsimp only
  rw [records?_writeRecords hplain, Option.bind_eq_bind, Option.bind_some, hr]
  exact congrArg (fun es ↦ some (some (Value.map es))) (putEntry_of_new hnew)

theorem recordsOfEntries_cons (key value : Field) (k v : Value) (rest : List (Value × Value)) :
    recordsOfEntries p key value n ((k, v) :: rest) =
      .bytes n (writeRecords (entryRecords p key value k v)) ::
        recordsOfEntries p key value n rest := by
  rw [recordsOfEntries, entryRecords, keptRecords, keptRecords]

theorem exists_entries (hp : p.Sound) {key value : Field}
    (hentry : p.entry? f = some (key, value)) (hfield : IsField n)
    {entries : List (Value × Value)} (hnodup : (entries.map Prod.fst).Nodup)
    (hkeys : ∀ x ∈ entries, FitsKey key.type x.1)
    (hfits : ∀ x ∈ entries, Fits p (.single value.type) x.2)
    (h : ∀ x ∈ entries, Encoded p (.single value.type) x.2)
    (hlength : (writeRecords (recordsOfEntries p key value n entries)).length < capacity 64) :
    (∀ r ∈ recordsOfEntries p key value n entries, r.field = n ∧ r.IsPlain) ∧
      ∀ d, nestingOfEntries entries ≤ d → ∃ ws,
        (∀ done : List (Value × Value), (∀ x ∈ done, ∀ y ∈ entries, x.1.sameKey y.1 = false) →
          (recordsOfEntries p key value n entries).foldlM (mergeStep p d f) (some (.map done)) =
            some (some (.map (done ++ ws)))) ∧
        writeEntries p value ws = writeEntries p value (unsignedEntries p value entries) ∧
          ws.length = entries.length := by
  induction entries with
  | nil =>
    rw [recordsOfEntries]
    refine ⟨List.forall_mem_nil _, fun d _ ↦ ⟨[], fun done _ ↦ ?_, by rw [unsignedEntries], rfl⟩⟩
    rw [List.foldlM_nil, List.append_nil]
    rfl
  | cons x rest ih =>
    obtain ⟨k, v⟩ := x
    obtain ⟨hk, hkeys⟩ := List.forall_mem_cons.1 hkeys
    obtain ⟨hv, hfits⟩ := List.forall_mem_cons.1 hfits
    obtain ⟨hencoded, h⟩ := List.forall_mem_cons.1 h
    obtain ⟨hx, hrest⟩ := List.nodup_cons.1 hnodup
    rw [recordsOfEntries_cons, writeRecords, List.length_append] at hlength
    have hbody := Nat.lt_of_le_of_lt (length_body_le n _)
      (Nat.lt_of_le_of_lt (Nat.le_add_right _ _) hlength)
    obtain ⟨hplain, hread⟩ := exists_entry hp hentry hk hv hencoded hbody
    obtain ⟨hplains, hreads⟩ := ih hrest hkeys hfits h (by omega)
    rw [recordsOfEntries_cons]
    refine ⟨List.forall_mem_cons.2 ⟨⟨rfl, hfield, hbody⟩, hplains⟩, fun d hd ↦ ?_⟩
    rw [nestingOfEntries, Nat.max_le] at hd
    obtain ⟨w, hw, heq⟩ := hread d hd.1
    obtain ⟨ws, hws, heqs, hcount⟩ := hreads d hd.2
    refine ⟨(k, w) :: ws, fun done hnew ↦ ?_, ?_, congrArg (· + 1) hcount⟩
    · have hnew' : ∀ x ∈ done ++ [(k, w)], ∀ y ∈ rest, x.1.sameKey y.1 = false := by
        refine List.forall_mem_append.2 ⟨fun x hx y hy ↦ hnew x hx y (List.mem_cons_of_mem _ hy),
          List.forall_mem_singleton.2 fun y hy ↦ ?_⟩
        rw [← Bool.not_eq_true, hk.sameKey_iff (hkeys y hy)]
        rintro rfl
        exact hx (List.mem_map.2 ⟨y, hy, rfl⟩)
      rw [List.foldlM_cons, mergeStep_entry hentry hplain hw fun x hx ↦
        hnew x hx _ List.mem_cons_self, Option.bind_eq_bind, Option.bind_some, hws _ hnew',
        List.append_assoc, List.singleton_append]
    · rw [unsignedEntries, writeEntries, writeEntries, heq, heqs]

theorem encoded_map (hp : p.Sound) {key value : Field} {entries : List (Value × Value)}
    (hentry : p.entry? f = some (key, value)) (hnodup : (entries.map Prod.fst).Nodup)
    (hkeys : ∀ x ∈ entries, FitsKey key.type x.1)
    (hfits : ∀ x ∈ entries, Fits p (.single value.type) x.2)
    (h : ∀ x ∈ entries, Encoded p (.single value.type) x.2) :
    Encoded p (.field f) (.map entries) := by
  intro hfield _ himplicit hwritten hlength
  have hpresence := himplicit (repeated_of_entry hentry)
  have hnonempty : entries.isEmpty = false := by
    rwa [isOmitted, hpresence, isDefault] at hwritten
  have hvalue (es : List (Value × Value)) :
      writeValue p f (.map es) = .ofMembers (writeEntries p value es) := by
    rw [writeValue, hentry]
    rfl
  have hrecords : recordsOf p f (.map entries) =
      recordsOfEntries p key value f.number entries := by
    rw [recordsOf, hentry]
  have hsigns := signless_of_written hwritten
  rw [hrecords] at hlength ⊢
  obtain ⟨hplains, hreads⟩ := exists_entries hp hentry hfield hnodup hkeys hfits h hlength
  refine ⟨hplains, fun d hd ↦ ?_⟩
  obtain ⟨ws, hws, heq, hcount⟩ := hreads d hd
  refine ⟨.map ws, ?_, ?_, fun _ ↦ ?_⟩
  · have hfold := hws [] (List.forall_mem_nil _)
    obtain ⟨x, rest, rfl⟩ : ∃ x rest, entries = x :: rest := by
      cases entries with
      | nil => cases hnonempty
      | cons x rest => exact ⟨x, rest, rfl⟩
    rw [recordsOfEntries_cons, List.foldlM_cons, ← mergeStep_none_map hentry,
      List.nil_append] at hfold
    rw [recordsOfEntries_cons, List.foldlM_cons, hfold]
  · rw [hsigns, unsigned, hentry, hvalue, hvalue, heq]
    rfl
  · rw [isDefault, ← hnonempty, Bool.eq_iff_iff, List.isEmpty_iff_length_eq_zero,
      List.isEmpty_iff_length_eq_zero, hcount]

/-! ### Messages -/

theorem length_writeRecords_le {α : Type} {xs : List α} {x : α} (hx : x ∈ xs)
    (records : α → List Record) :
    (writeRecords (records x)).length ≤ (writeRecords (xs.flatMap records)).length := by
  induction xs with
  | nil => cases hx
  | cons y rest ih =>
    rw [List.flatMap_cons, writeRecords_append, List.length_append]
    rcases List.mem_cons.1 hx with rfl | hx
    · exact Nat.le_add_right _ _
    · exact (ih hx).trans (Nat.le_add_left _ _)

theorem length_writeRecords_sortRecords (rs : List Record) :
    (writeRecords (sortRecords rs)).length = (writeRecords rs).length := by
  have hflat (rs : List Record) : writeRecords rs = rs.flatMap Record.write := by
    induction rs with
    | nil => rfl
    | cons r rest ih => rw [writeRecords, ih, List.flatMap_cons]
  rw [hflat, hflat, sortRecords]
  exact ((List.mergeSort_perm rs _).flatMap_right _).length_eq

theorem sortRecords_flatMap {xs : Fields} (horder : xs.InOrder)
    {records : Nat × Value → List Record} (h : ∀ x ∈ xs, ∀ r ∈ records x, r.field = x.1) :
    sortRecords (xs.flatMap records) = xs.flatMap records := by
  refine List.mergeSort_of_pairwise (List.pairwise_flatMap.2 ⟨fun x hx ↦ ?_, ?_⟩)
  · refine List.pairwise_of_forall_mem_list fun r hr s hs ↦ decide_eq_true ?_
    rw [h x hx r hr, h x hx s hs]
  · refine horder.imp_of_mem fun {x y} hx hy hlt r hr s hs ↦ decide_eq_true ?_
    rw [h x hx r hr, h y hy s hs]
    exact hlt.le

theorem without_eq (horder : fields.InOrder) {numbers : List Nat}
    (h : ∀ k ∈ numbers, fields.get? k = none) : fields.without numbers = fields := by
  refine List.filter_eq_self.2 fun x hx ↦ ?_
  rw [Bool.not_eq_true', ← Bool.not_eq_true, List.contains_iff_mem]
  intro hmem
  have hget : fields.get? x.1 = some x.2 := horder.get?_eq_some_iff.2 hx
  rw [h x.1 hmem] at hget
  cases hget

/-- The records of a field are read one after the other, and only its value changes. -/
theorem exists_addRecords (unknown : List Record) (hfind : M.field? n = some f)
    (hnumber : f.number = n) {rs : List Record} (hrs : ∀ r ∈ rs, r.field = n)
    (horder : fields.InOrder)
    (hsiblings : ∀ k ∈ M.siblings f, fields.get? k = none)
    (h : rs.foldlM (mergeStep p d f) (fields.get? n) = some (some w)) :
    ∃ fields', rs.foldlM (addRecord? p (merge? p d) d M) (fields, unknown) =
        some (fields', unknown) ∧ fields'.InOrder ∧ fields'.get? n = some w ∧
          ∀ k ≠ n, fields'.get? k = fields.get? k := by
  induction rs generalizing fields with
  | nil => exact ⟨fields, rfl, horder, Option.some.inj h, fun _ _ ↦ rfl⟩
  | cons r rest ih =>
    obtain ⟨hr, hrest⟩ := List.forall_mem_cons.1 hrs
    rw [List.foldlM_cons] at h
    obtain ⟨after, hafter, h⟩ := Option.bind_eq_some_iff.1 h
    obtain ⟨v, hv, rfl⟩ := Option.map_eq_some_iff.1 hafter
    have hadd : addRecord? p (merge? p d) d M (fields, unknown) r =
        some (fields.set n v, unknown) := by
      rw [addRecord?, hr, hfind]
      dsimp only
      rw [without_eq horder hsiblings, hnumber, hv]
      rfl
    have hself : (fields.set n v).get? n = some v := by rw [Fields.get?_set, if_pos rfl]
    have hother : ∀ k ≠ n, (fields.set n v).get? k = fields.get? k := fun k hk ↦ by
      rw [Fields.get?_set, if_neg hk]
    obtain ⟨fields', hfields, horder', hget, hsame⟩ := ih hrest (horder.set n v)
      (fun k hk ↦ by
        obtain ⟨g, -, -, hne, -⟩ := mem_siblings.1 hk
        rw [hother k (hnumber ▸ hne), hsiblings k hk])
      (hself.symm ▸ h)
    refine ⟨fields', ?_, horder', hget, fun k hk ↦ (hsame k hk).trans (hother k hk)⟩
    rw [List.foldlM_cons, hadd]
    exact hfields

/-- The records of fields that are no alternatives to each other are read field by field. -/
theorem exists_addFields {xs : List (Nat × Value)} (value : Nat × Value → Value)
    (records : Nat × Value → List Record) (unknown : List Record)
    (hfield : ∀ x ∈ xs, ∃ f, M.field? x.1 = some f ∧ f.number = x.1 ∧
      (∀ k ∈ M.siblings f, fields.get? k = none ∧ ∀ y ∈ xs, y.1 ≠ k) ∧
        (∀ r ∈ records x, r.field = x.1) ∧
          (records x).foldlM (mergeStep p d f) none = some (some (value x)))
    (hapart : xs.Pairwise fun x y ↦ x.1 ≠ y.1) (horder : fields.InOrder)
    (hnew : ∀ x ∈ xs, fields.get? x.1 = none) :
    ∃ fields', (xs.flatMap records).foldlM (addRecord? p (merge? p d) d M) (fields, unknown) =
        some (fields', unknown) ∧ fields'.InOrder ∧
          (∀ x ∈ xs, fields'.get? x.1 = some (value x)) ∧
            ∀ k, (∀ x ∈ xs, x.1 ≠ k) → fields'.get? k = fields.get? k := by
  induction xs generalizing fields with
  | nil => exact ⟨fields, rfl, horder, List.forall_mem_nil _, fun _ _ ↦ rfl⟩
  | cons x rest ih =>
    obtain ⟨⟨f, hfind, hnumber, hsiblings, hrecords, hread⟩, hfields⟩ :=
      List.forall_mem_cons.1 hfield
    obtain ⟨hx, hrest⟩ := List.pairwise_cons.1 hapart
    obtain ⟨hfree, hnew⟩ := List.forall_mem_cons.1 hnew
    obtain ⟨fields₁, hfold, horder₁, hget, hsame⟩ := exists_addRecords unknown hfind
      hnumber hrecords horder (fun k hk ↦ (hsiblings k hk).1) (hfree.symm ▸ hread)
    obtain ⟨fields₂, hfold₂, horder₂, hgets, hsame₂⟩ := ih
      (fun y hy ↦ by
        obtain ⟨g, hg, hgnumber, hgsiblings, hgrecords⟩ := hfields y hy
        refine ⟨g, hg, hgnumber, fun k hk ↦ ?_, hgrecords⟩
        obtain ⟨hnone, hothers⟩ := hgsiblings k hk
        obtain ⟨hxk, hothers⟩ := List.forall_mem_cons.1 hothers
        exact ⟨(hsame k hxk.symm).trans hnone, hothers⟩)
      hrest horder₁ (fun y hy ↦ (hsame y.1 (hx y hy).symm).trans (hnew y hy))
    refine ⟨fields₂, ?_, horder₂, List.forall_mem_cons.2 ⟨?_, hgets⟩, fun k hk ↦ ?_⟩
    · rw [List.flatMap_cons, List.foldlM_append, hfold]
      exact hfold₂
    · exact (hsame₂ x.1 fun y hy ↦ (hx y hy).symm).trans hget
    · obtain ⟨hxk, hothers⟩ := List.forall_mem_cons.1 hk
      exact (hsame₂ k hothers).trans (hsame k hxk.symm)

/-- The fields that are written. -/
def written (p : Pool) (M : MessageType) (fields : Fields) : Fields :=
  fields.filter fun x ↦ !isOmitted p (fieldOr M x.1) x.2

/-- The records of a field that is set. -/
def recordsAt (p : Pool) (M : MessageType) (x : Nat × Value) : List Record :=
  recordsOf p (fieldOr M x.1) x.2

theorem mem_written {x : Nat × Value} : x ∈ written p M fields ↔
    x ∈ fields ∧ isOmitted p (fieldOr M x.1) x.2 = false := by
  rw [written, List.mem_filter, Bool.not_eq_true']

theorem fieldOr_eq (hnumbers : (M.fields.map (·.number)).Nodup) (hf : f ∈ M.fields) :
    fieldOr M f.number = f := by
  rw [fieldOr, (field?_eq_some_iff hnumbers).2 ⟨hf, rfl⟩, Option.getD_some]

theorem recordsOfFields_eq (M : MessageType) (fields : Fields) :
    recordsOfFields p M fields = (written p M fields).flatMap (recordsAt p M) := by
  induction fields with
  | nil => rw [recordsOfFields, written, List.filter_nil, List.flatMap_nil]
  | cons x rest ih =>
    rw [recordsOfFields, ih, written, written, List.filter_cons]
    cases isOmitted p (fieldOr M x.1) x.2 with
    | true => rfl
    | false =>
      rw [Bool.not_false, if_pos rfl, if_neg Bool.false_ne_true, List.flatMap_cons, recordsAt]

theorem get?_unsignedFields (M : MessageType) (fields : Fields) (n : Nat) :
    Fields.get? (unsignedFields p M fields) n = (fields.get? n).map fun v ↦
      signless (fieldOr M n) (unsigned p (fieldOr M n) v) := by
  rw [unsignedFields_eq_map]
  induction fields with
  | nil => rfl
  | cons x rest ih =>
    rw [Fields.get?, Fields.get?, List.map_cons, List.lookup_cons, List.lookup_cons]
    cases hx : n == x.1 with
    | true =>
      obtain rfl := beq_iff_eq.1 hx
      rfl
    | false => exact ih

theorem inOrder_unsignedFields (M : MessageType) (horder : fields.InOrder) :
    Fields.InOrder (unsignedFields p M fields) := by
  rw [unsignedFields_eq_map]
  exact List.pairwise_map.2 horder

theorem isDefault_unsigned (f g : Field) (v : Value) :
    isDefault p f (unsigned p g v) = isDefault p f v := by
  cases v
  case list items => rw [unsigned, isDefault, isDefault, unsignedItems_eq_map, List.isEmpty_map]
  case map entries =>
    rw [unsigned, isDefault, isDefault, unsignedEntries_eq_map, List.isEmpty_map]
  all_goals rfl

section Body

variable (hp : p.Sound) (hm : p.IsType m)

include hp hm

/-- What was read of the fields that were written shows what the message shows, up to the signs of
zeros. -/
theorem shown_of_read (hf : f ∈ (p.extended m).fields)
    (hfits : ∀ v, fields.get? f.number = some v → Fits p (.field f) v)
    (hwritten : ∀ v, fields.get? f.number = some v → isOmitted p f v = false →
      ∃ w, fields'.get? f.number = some w ∧ IsReadAs p f v w)
    (hother : (∀ v, fields.get? f.number = some v → isOmitted p f v) →
      fields'.get? f.number = none) :
    shown p m fields' f = shown p m (unsignedFields p (p.extended m) fields) f := by
  rw [shown, shown, get?_unsignedFields, fieldOr_eq (hp.numbers m hm) hf]
  cases hget : fields.get? f.number with
  | none =>
    rw [hother fun v hv ↦ absurd (hget.symm.trans hv) (Option.some_ne_none v).symm]
    rfl
  | some v =>
    rw [Option.map_some]
    dsimp only
    by_cases homitted : isOmitted p f v = true
    · -- What is left out is shown as a field that is not set.
      have hnone := hother fun u hu ↦ Option.some.inj (hget.symm.trans hu) ▸ homitted
      have hpresence : f.presence = false := by
        rw [isOmitted, Bool.and_eq_true, Bool.not_eq_true'] at homitted
        exact homitted.1
      rw [hnone, (hfits v hget).signless_eq homitted]
      dsimp only
      by_cases hown : IsOwn m f
      · rw [if_pos ⟨hown, hpresence⟩, if_neg fun h ↦ h.1 hown]
      · have hrepeated := hp.extension m hm f ((mem_extended.1 hf).resolve_left fun hmem ↦
          hown ((isOwn_iff hp hm hf).2 hmem)) hpresence
        have hdefault : isOmitted p f (defaultValue p f) := by
          rw [isOmitted, hpresence, defaultValue, hrepeated]
          split <;> rfl
        rw [if_neg fun h ↦ hown h.1, if_pos ⟨hown, hdefault⟩]
    · rw [Bool.not_eq_true] at homitted
      obtain ⟨w, hw, heq, hdefault⟩ := hwritten v hget homitted
      rw [hw, ← heq]
      dsimp only
      have hshown : ¬(¬IsOwn m f ∧ isOmitted p f w) := by
        rintro ⟨hown, h⟩
        rw [isOmitted_extension hp hm hf hown hdefault] at h
        cases h
      have hunsigned : ¬(¬IsOwn m f ∧ isOmitted p f (signless f (unsigned p f v))) := by
        rintro ⟨-, h⟩
        rw [signless_of_written homitted, isOmitted, isDefault_unsigned, ← isOmitted,
          homitted] at h
        cases h
      rw [if_neg hshown, if_neg hunsigned]

section Fields

variable (horder : fields.InOrder) (hexclusive : Exclusive (p.extended m) fields)
  (hthere : ∀ x ∈ fields, ∃ f, (p.extended m).field? x.1 = some f)
  (h : ∀ f ∈ (p.extended m).fields, ∀ v, fields.get? f.number = some v → Encoded p (.field f) v)

include horder hthere

theorem of_mem_written {x : Nat × Value} (hx : x ∈ written p (p.extended m) fields) :
    ∃ f ∈ (p.extended m).fields, f.number = x.1 ∧ fieldOr (p.extended m) x.1 = f ∧
      fields.get? f.number = some x.2 ∧ isOmitted p f x.2 = false := by
  obtain ⟨hmem, homitted⟩ := mem_written.1 hx
  obtain ⟨f, hfind⟩ := hthere x hmem
  obtain ⟨hf, hnumber⟩ := (field?_eq_some_iff (hp.numbers m hm)).1 hfind
  have hfieldOr : fieldOr (p.extended m) x.1 = f := by rw [fieldOr, hfind, Option.getD_some]
  exact ⟨f, hf, hnumber, hfieldOr, hnumber ▸ horder.get?_eq_some_iff.2 hmem, hfieldOr ▸ homitted⟩

include h in
theorem exists_written (hshort : (writeRecords ((written p (p.extended m) fields).flatMap
      (recordsAt p (p.extended m)))).length < capacity 64) (hnesting : nestingOfFields fields ≤ d)
    {x : Nat × Value} (hx : x ∈ written p (p.extended m) fields) :
    (∀ r ∈ recordsAt p (p.extended m) x, r.field = x.1 ∧ r.IsPlain) ∧
      ∃ w, (recordsAt p (p.extended m) x).foldlM (mergeStep p d (fieldOr (p.extended m) x.1)) none =
          some (some w) ∧ IsReadAs p (fieldOr (p.extended m) x.1) x.2 w := by
  obtain ⟨f, hf, hnumber, hfieldOr, hget, hwritten⟩ := of_mem_written hp hm horder hthere hx
  have hlength := (length_writeRecords_le hx (recordsAt p (p.extended m))).trans_lt hshort
  rw [recordsAt, hfieldOr, ← hnumber]
  rw [recordsAt, hfieldOr] at hlength
  obtain ⟨hplain, hread⟩ := h f hf x.2 hget (hp.isField m hm f hf)
    (fun hpacked ↦ (hp.packed m hm f hf hpacked).2) (hp.repeated m hm f hf) hwritten hlength
  have hdepth := (nesting_le_of_mem_fields (mem_written.1 hx).1).trans hnesting
  exact ⟨hplain, hread d hdepth⟩

include hexclusive in
theorem ne_of_mem_siblings {x y : Nat × Value} (hx : x ∈ written p (p.extended m) fields)
    (hy : y ∈ written p (p.extended m) fields) {k : Nat}
    (hk : k ∈ (p.extended m).siblings (fieldOr (p.extended m) x.1)) : y.1 ≠ k := by
  rintro rfl
  obtain ⟨f, hf, -, hfieldOr, hget, -⟩ := of_mem_written hp hm horder hthere hx
  rw [hfieldOr] at hk
  have hnone := hexclusive f hf (Option.isSome_iff_exists.2 ⟨_, hget⟩) y.1 hk
  rw [horder.get?_eq_some_iff.2 (mem_written.1 hy).1] at hnone
  cases hnone

include hexclusive h in
/-- The fields that are written are read one after the other, and no others. -/
theorem exists_read (hlength : (bytes p m (.message fields [])).length < capacity 64)
    (hnesting : nestingOfFields fields ≤ d) :
    ∃ fields', merge? p (d + 1) (p.extended m) (bytes p m (.message fields [])) ([], []) =
        some (fields', []) ∧ fields'.InOrder ∧
      (∀ x ∈ written p (p.extended m) fields, ∃ w, fields'.get? x.1 = some w ∧
        IsReadAs p (fieldOr (p.extended m) x.1) x.2 w) ∧
      ∀ k, (∀ x ∈ written p (p.extended m) fields, x.1 ≠ k) → fields'.get? k = none := by
  have hbytes : bytes p m (.message fields []) = writeRecords (sortRecords
      ((written p (p.extended m) fields).flatMap (recordsAt p (p.extended m)))) := by
    rw [bytes, List.append_nil, recordsOfFields_eq]
  rw [hbytes, length_writeRecords_sortRecords] at hlength
  have hwritten (x) (hx : x ∈ written p (p.extended m) fields) :=
    exists_written hp hm horder hthere h hlength hnesting hx
  have hsorted : (written p (p.extended m) fields).InOrder := horder.sublist List.filter_sublist
  have hplain : ∀ r ∈ (written p (p.extended m) fields).flatMap (recordsAt p (p.extended m)),
      r.IsPlain := by
    intro r hr
    obtain ⟨x, hx, hr⟩ := List.mem_flatMap.1 hr
    exact ((hwritten x hx).1 r hr).2
  have hnumbers (x) (hx : x ∈ written p (p.extended m) fields) (r)
      (hr : r ∈ recordsAt p (p.extended m) x) : r.field = x.1 := ((hwritten x hx).1 r hr).1
  choose! value hread hvalue using fun x hx ↦ (hwritten x hx).2
  obtain ⟨fields', hfold, horder', hget, hother⟩ := exists_addFields value
    (recordsAt p (p.extended m)) []
    (fun x hx ↦ by
      obtain ⟨f, hf, hnumber, hfieldOr, -, -⟩ := of_mem_written hp hm horder hthere hx
      have hsiblings (k) (hk : k ∈ (p.extended m).siblings f) (y)
          (hy : y ∈ written p (p.extended m) fields) : y.1 ≠ k :=
        ne_of_mem_siblings hp hm horder hexclusive hthere hx hy (hfieldOr ▸ hk)
      exact ⟨f, (field?_eq_some_iff (hp.numbers m hm)).2 ⟨hf, hnumber⟩, hnumber,
        fun k hk ↦ ⟨rfl, hsiblings k hk⟩, hnumbers x hx, hfieldOr ▸ hread x hx⟩)
    (hsorted.imp Nat.ne_of_lt) List.Pairwise.nil fun _ _ ↦ rfl
  refine ⟨fields', ?_, horder', fun x hx ↦ ⟨value x, hget x hx, hvalue x hx⟩, hother⟩
  rw [hbytes, sortRecords_flatMap hsorted hnumbers, merge?, records?_writeRecords hplain,
    Option.bind_eq_bind, Option.bind_some]
  exact hfold

include hexclusive h in
theorem encoded_body (hfits : ∀ f ∈ (p.extended m).fields, ∀ v, fields.get? f.number = some v →
    Fits p (.field f) v) : Encoded p (.body m) (.message fields []) := by
  intro hlength d hd
  rw [Value.nesting] at hd
  obtain ⟨d, rfl⟩ : ∃ k, d = k + 1 := ⟨d - 1, by omega⟩
  obtain ⟨fields', hread, horder', hwritten, hother⟩ :=
    exists_read hp hm horder hexclusive hthere h hlength (Nat.le_of_succ_le_succ hd)
  refine ⟨fields', hread, toJson_congr hp hm horder' (inOrder_unsignedFields _ horder) ?_⟩
  intro f hf
  have hfieldOr := fieldOr_eq (hp.numbers m hm) hf
  refine shown_of_read hp hm hf (hfits f hf) (fun v hv homitted ↦ ?_) fun homitted ↦ ?_
  · have hx : (f.number, v) ∈ written p (p.extended m) fields :=
      mem_written.2 ⟨Fields.mem_of_get? hv, hfieldOr.symm ▸ homitted⟩
    obtain ⟨w, hget, hread⟩ := hwritten _ hx
    exact ⟨w, hget, hfieldOr ▸ hread⟩
  · refine hother f.number fun x hx heq ↦ ?_
    obtain ⟨g, hg, hnumber, -, hget, hkept⟩ := of_mem_written hp hm horder hthere hx
    obtain rfl := List.inj_on_of_nodup_map (hp.numbers m hm) hg hf (hnumber.trans heq)
    rw [homitted x.2 hget] at hkept
    cases hkept

end Fields

end Body

/-- **What fits its place is read from its bytes as something of the same document**, up to the
signs of zeros that are not written. -/
theorem Fits.encoded (hp : p.Sound) {place : Place} (h : Fits p place v) : Encoded p place v := by
  induction h with
  | plain h => exact h.encoded
  | message _ ih => exact encoded_message ih
  | body hm horder hexclusive hthere hfits ih =>
    have hfound {f : Field} (hf : f ∈ (p.extended _).fields) :=
      (field?_eq_some_iff (hp.numbers _ hm)).2 ⟨hf, rfl⟩
    refine encoded_body hp hm horder hexclusive hthere (fun f hf v hget ↦ ?_) fun f hf v hget ↦ ?_
    · exact ih f.number v f (Fields.mem_of_get? hget) (hfound hf)
    · exact hfits f.number v f (Fields.mem_of_get? hget) (hfound hf)
  | one hrepeated _ ih => exact encoded_one hrepeated ih
  | list hrepeated hentry hfits ih => exact encoded_list hrepeated hentry hfits ih
  | map hentry hnodup hkeys hfits ih => exact encoded_map hp hentry hnodup hkeys hfits ih

end CallCheck.Message

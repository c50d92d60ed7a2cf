import CallCheck.Proofs.Message.Encoding

/-!
# The forms of a message

A message that was read from a text has a document and bytes, and both can be read again. What is
read from the text of the document renders to the same document, and what is read from the bytes
renders to the same document up to the signs of zeros in fields without presence, which are not
written.

The text of a document cannot always be read: the reader stops at documents that nest too deep, and
a field that is not set may add a list to the deepest message. Nor is every number in it read as
itself, since the reader does not always find the nearest number.

## Main statement

`Message.forms_agree`: for a message type of a linked schema, what the forms of a message that was
read from a text are read as.
-/

namespace CallCheck.Message

open Numeric Schema Wire

variable {files : List FileDecl} {p : Pool} {m : MessageType} {text : String} {v : Value}

theorem fits_of_ofText? (hp : p.Sound) (hm : p.IsType m) (h : ofText? p m text = some v) :
    Fits p (.body m) v := by
  obtain ⟨j, -, hj⟩ := Option.bind_eq_some_iff.1 h
  exact fits_of_ofJson? hp hm hj

/-- **The forms of a message agree.** What was read from a text has a document. If every floating
point number in it is read as itself, the text of the document is read as something of the same
document, unless the document nests too deep and is not read at all. The bytes are read if messages
do not nest too deep in it, as something of the same document but for the signs of zeros that are
not written; without such a sign the document is the same. -/
theorem forms_agree (hlink : link files = .ok p) (hregular : p.Regular) (hm : m ∈ p.messages)
    (hread : ofText? p m text = some v) :
    (∃ members, toJson p m v = .object members) ∧
      ((∀ w ∈ v.parts, w.IsReadBack) →
        if (toJson p m v).depth < Json.maxDepth then
          ∃ w, ofText? p m (toJson p m v).text = some w ∧ toJson p m w = toJson p m v
        else ofText? p m (toJson p m v).text = none) ∧
      (v.nesting ≤ maxNesting + 1 → (bytes p m v).length < capacity 64 →
        ∃ w, ofBytes? p m (bytes p m v) = some w ∧
          toJson p m w = toJson p m (unsignedMessage p m v)) ∧
      ((∀ w ∈ v.parts, ¬w.IsSignedZero) → unsignedMessage p m v = v) := by
  have hp := sound_of_link hlink hregular
  have hfits := fits_of_ofText? hp (.inl hm) hread
  refine ⟨?_, fun hback ↦ ?_, fun hnesting hlength ↦ ?_, hfits.unchanged⟩
  · cases hfits
    exact ⟨_, rfl⟩
  · obtain ⟨hlegible, w, hw, heq⟩ := hfits.rendered hp hback
    split
    · next hdepth =>
      refine ⟨w, ?_, heq⟩
      rw [ofText?, Json.read?_text_reread hlegible hdepth, Option.bind_some, hw]
    · next hdepth =>
      rw [ofText?, Json.read?_text_of_le hlegible (Nat.not_lt.1 hdepth), Option.bind_none]
  · obtain ⟨fields, hfields, heq⟩ := hfits.encoded hp hlength (maxNesting + 1) hnesting
    refine ⟨.message fields [], ?_, heq⟩
    rw [ofBytes?, hfields, Option.map_some]

/-! ## Samples -/

/-- A file of a message type with a number, a list of numbers and a message of the type itself. -/
def samples : FileDecl where
  name := "samples.proto"
  package := "samples"
  version := some "proto3"
  messages := [.mk "Sample" [{ name := "value", number := 1, type := some (.scalar .double) },
    { name := "counts", number := 2, label := .repeated, type := some (.scalar .int32) },
    { name := "inner", number := 3, type := some .message, typeName := some ".samples.Sample" }]
    [] [] [] [] [] [] false]

/-- The message type of the file. -/
def sample : MessageType where
  symbol := Symbol.of "samples" "Sample"
  fields := [{ name := "value", jsonName := "value", number := 1, type := .scalar .double },
    { name := "counts", jsonName := "counts", number := 2, type := .scalar .int32,
      repeated := true, packed := true },
    { name := "inner", jsonName := "inner", number := 3, type := .message "samples.Sample",
      presence := true }]

/-- The schema of the file. -/
def samplesPool : Pool := { files := [samples], messages := [sample] }

theorem regular_samplesPool : samplesPool.Regular where
  entries_single := by decide
  repeated_implicit := by decide
  enum_numbers := List.forall_mem_nil _
  extension_numbers := List.forall_mem_nil _
  extensions_apart := List.nodup_nil
  extension_names _ _ _ _ := List.forall_mem_nil _

/-- A message in a message is read again from its text and from its bytes. -/
theorem forms_agree_sample : ∃ v, link [samples] = .ok samplesPool ∧ samplesPool.Regular ∧
    sample ∈ samplesPool.messages ∧
    ofText? samplesPool sample "\x7b\"inner\":\x7b\"value\":2.5\x7d\x7d" = some v ∧
    (∃ w, ofText? samplesPool sample (toJson samplesPool sample v).text = some w ∧
      toJson samplesPool sample w = toJson samplesPool sample v) ∧
    ∃ w, ofBytes? samplesPool sample (bytes samplesPool sample v) = some w ∧
      toJson samplesPool sample w = toJson samplesPool sample v := by
  have hlink : link [samples] = .ok samplesPool := by decide +kernel
  have hmem : sample ∈ samplesPool.messages := List.mem_cons_self
  have hread : (ofText? samplesPool sample "\x7b\"inner\":\x7b\"value\":2.5\x7d\x7d").any fun v ↦
      (∀ w ∈ v.parts, w.IsReadBack ∧ ¬w.IsSignedZero) ∧
        (toJson samplesPool sample v).depth < Json.maxDepth ∧ v.nesting ≤ maxNesting + 1 ∧
          (bytes samplesPool sample v).length < capacity 64 := by decide +kernel
  obtain ⟨v, hv, hchecks⟩ := (Option.any_eq_true ..).1 hread
  obtain ⟨hparts, hdepth, hnesting, hlength⟩ := of_decide_eq_true hchecks
  obtain ⟨-, htext, hbytes, hunsigned⟩ := forms_agree hlink regular_samplesPool hmem hv
  have htext := htext fun w hw ↦ (hparts w hw).1
  rw [if_pos hdepth] at htext
  obtain ⟨w, hw, heq⟩ := hbytes hnesting hlength
  rw [hunsigned fun w hw ↦ (hparts w hw).2] at heq
  exact ⟨v, hlink, regular_samplesPool, hmem, hv, htext, w, hw, heq⟩

/-- The document of messages in each other, as many as given in one without fields. -/
def nested : Nat → Json
  | 0 => .object []
  | n + 1 => .object [("inner", nested n)]

theorem nested_spec (n : Nat) :
    (nested n).Legible ∧ (nested n).reread = nested n ∧ (nested n).depth = n + 1 := by
  induction n with
  | zero => exact ⟨trivial, rfl, rfl⟩
  | succ n ih =>
    obtain ⟨hlegible, hreread, hdepth⟩ := ih
    refine ⟨⟨hlegible, trivial⟩, ?_, ?_⟩
    · rw [nested, Json.reread, Json.rereadMembers, Json.rereadMembers, hreread]
    · rw [nested, Json.depth, Json.depthOfMembers, Json.depthOfMembers, hdepth, Nat.max_zero]

/-- A file of a message type that lets a list be an alternative, which no compiler accepts. -/
def loose : FileDecl where
  name := "loose.proto"
  version := some "proto3"
  messages := [.mk "Loose"
    [{ name := "names", number := 1, label := .repeated, type := some (.scalar .string),
       oneof := some 0 }] ["choice"] [] [] [] [] [] false]

/-- The message type of the file. -/
def looseType : MessageType where
  symbol := Symbol.of "" "Loose"
  fields :=
    [{ name := "names", jsonName := "names", number := 1, type := .scalar .string,
       repeated := true, presence := true, oneof := some 0 }]

/-- The schema of the file. -/
def loosePool : Pool := { files := [loose], messages := [looseType] }

/-- The bytes of what a text writes are read as something of another document. -/
def BytesDiffer (p : Pool) (m : MessageType) (text : String) : Prop :=
  ∃ v w, ofText? p m text = some v ∧ v.nesting ≤ maxNesting + 1 ∧
    ofBytes? p m (bytes p m v) = some w ∧ (toJson p m w).text ≠ (toJson p m v).text

theorem bytesDiffer_of_any (h : (ofText? p m text).any fun v ↦ v.nesting ≤ maxNesting + 1 ∧
    (ofBytes? p m (bytes p m v)).any fun w ↦ (toJson p m w).text ≠ (toJson p m v).text) :
    BytesDiffer p m text := by
  obtain ⟨v, hv, h⟩ := (Option.any_eq_true ..).1 h
  obtain ⟨hnesting, h⟩ := of_decide_eq_true h
  obtain ⟨w, hw, hne⟩ := (Option.any_eq_true ..).1 h
  exact ⟨v, w, hv, hnesting, hw, of_decide_eq_true hne⟩

/-- The forms do not always agree: a number is read as another one, the text of a document nests too
deep, a zero is written without its sign, and an empty alternative is not written. -/
theorem forms_disagree : link [samples] = .ok samplesPool ∧ sample ∈ samplesPool.messages ∧
    (∃ v w, ofText? samplesPool sample "\x7b\"value\":\"1e-23\"\x7d" = some v ∧
      ofText? samplesPool sample (toJson samplesPool sample v).text = some w ∧
        (toJson samplesPool sample w).text ≠ (toJson samplesPool sample v).text) ∧
    (∃ v, ofText? samplesPool sample (nested 126).text = some v ∧
      ofText? samplesPool sample (toJson samplesPool sample v).text = none) ∧
    BytesDiffer samplesPool sample "\x7b\"value\":-0.0\x7d" ∧
    link [loose] = .ok loosePool ∧ looseType ∈ loosePool.messages ∧
    BytesDiffer loosePool looseType "\x7b\"names\":[]\x7d" := by
  have hnumber : (ofText? samplesPool sample "\x7b\"value\":\"1e-23\"\x7d").any fun v ↦
      (ofText? samplesPool sample (toJson samplesPool sample v).text).any fun w ↦
        (toJson samplesPool sample w).text ≠ (toJson samplesPool sample v).text := by
    decide +kernel
  have hdeep : (ofJson? samplesPool sample (nested 126)).any fun v ↦
      (∀ w ∈ v.parts, w.IsReadBack) ∧ Json.maxDepth ≤ (toJson samplesPool sample v).depth := by
    decide +kernel
  have hlink : link [samples] = .ok samplesPool := by decide +kernel
  have hloose : link [loose] = .ok loosePool := by decide +kernel
  refine ⟨hlink, List.mem_cons_self, ?_, ?_, bytesDiffer_of_any (by decide +kernel), hloose,
    List.mem_cons_self, bytesDiffer_of_any (by decide +kernel)⟩
  · obtain ⟨v, hv, hnumber⟩ := (Option.any_eq_true ..).1 hnumber
    obtain ⟨w, hw, hne⟩ := (Option.any_eq_true ..).1 hnumber
    exact ⟨v, w, hv, hw, of_decide_eq_true hne⟩
  · obtain ⟨v, hv, hdeep⟩ := (Option.any_eq_true ..).1 hdeep
    obtain ⟨hback, hdepth⟩ := of_decide_eq_true hdeep
    have hp := sound_of_link hlink regular_samplesPool
    have hfits := fits_of_ofJson? hp (.inl List.mem_cons_self) hv
    obtain ⟨hlegible, -⟩ := hfits.rendered hp hback
    obtain ⟨hnested, hreread, hshallow⟩ := nested_spec 126
    refine ⟨v, ?_, ?_⟩
    · rw [ofText?, Json.read?_text_reread hnested (by rw [hshallow]; decide), hreread,
        Option.bind_some, hv]
    · rw [ofText?, Json.read?_text_of_le hlegible hdepth, Option.bind_none]

end CallCheck.Message

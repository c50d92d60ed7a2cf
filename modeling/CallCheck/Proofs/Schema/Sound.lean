import CallCheck.Message.Value
import CallCheck.Proofs.Schema.Linking
import CallCheck.Proofs.Wire.Records

/-!
# Fields of linked schemas

Linking checks most of what reading and writing messages relies on: the numbers and the names of the
fields of a message type, the types they name and the values of enumerations. What it takes on trust
is what every compiler of schemas refuses or no descriptor can hold (`Schema.Pool.Regular`).

## Main statement

`Schema.sound_of_link`: of a message type of a linked and regular pool, together with what
extensions add to it, no two fields share a number or a name in JSON, every number can be written,
only lists of numbers are packed, and a field that has a value without being set is no message.
-/

namespace CallCheck.Schema

open Wire (IsField)

variable {files : List FileDecl} {p : Pool} {m : MessageType} {f g : Field}

/-- What the language asks of a schema and linking does not check. -/
structure Pool.Regular (p : Pool) : Prop where
  /-- The key and the value of an entry of a map are single. -/
  entries_single : ∀ m ∈ p.messages, m.mapEntry → ∀ f ∈ m.fields, f.repeated = false
  /-- A field that holds any number of values is neither optional nor an alternative. -/
  repeated_implicit : ∀ m ∈ p.messages, ∀ f ∈ m.fields, f.repeated → f.presence = false
  /-- The numbers of the values of enumerations have 32 bits. -/
  enum_numbers : ∀ e ∈ p.enums, ∀ x ∈ e.values, Numeric.hasWidth 32 x.2
  /-- An extension has a number that fields can have. -/
  extension_numbers : ∀ x ∈ p.extensions,
    0 < x.2.2.number ∧ x.2.2.number < Numeric.capacity 29
  /-- No two extensions of a message type share a number. -/
  extensions_apart : (p.extensions.map fun x ↦ (x.2.1, x.2.2.number)).Nodup
  /-- No field is given the name in JSON of an extension. -/
  extension_names : ∀ m ∈ p.messages, ∀ f ∈ m.fields, ∀ x ∈ p.extensions,
    f.jsonName ≠ x.2.2.jsonName

/-- A message type that a name can stand for: one of the pool, or one without fields. -/
def Pool.IsType (p : Pool) (m : MessageType) : Prop :=
  m ∈ p.messages ∨ m.fields = [] ∧ m.mapEntry = false

theorem Pool.isType_messageType (p : Pool) (name : String) : p.IsType (p.messageType name) := by
  rw [messageType]
  cases h : p.messages.find? (·.symbol.full == name) with
  | none => exact .inr ⟨rfl, rfl⟩
  | some m => exact .inl (List.mem_of_find?_eq_some h)

theorem Pool.IsType.mem (h : p.IsType m) (hf : f ∈ m.fields) : m ∈ p.messages := by
  rcases h with h | ⟨hnone, -⟩
  · exact h
  · rw [hnone] at hf
    cases hf

/-- What reading and writing messages relies on. -/
structure Pool.Sound (p : Pool) : Prop where
  /-- No two fields share a number. -/
  numbers : ∀ m, p.IsType m → ((p.extended m).fields.map (·.number)).Nodup
  /-- No two fields share a name in JSON. -/
  jsonNames : ∀ m, p.IsType m → ((p.extended m).fields.map (·.jsonName)).Nodup
  /-- Every number can be written. -/
  isField : ∀ m, p.IsType m → ∀ f ∈ (p.extended m).fields, IsField f.number
  /-- Only lists of numbers are packed. -/
  packed : ∀ m, p.IsType m → ∀ f ∈ (p.extended m).fields,
    f.packed → f.repeated ∧ f.type.isPackable
  /-- A field that holds any number of values has a value without being set. -/
  repeated : ∀ m, p.IsType m → ∀ f ∈ (p.extended m).fields, f.repeated → f.presence = false
  /-- An extension has a value without being set only if it holds any number of values. -/
  extension : ∀ m, p.IsType m → ∀ f ∈ p.extensionsOf m, f.presence = false → f.repeated
  /-- A field of a message type that has a value without being set is no alternative, and if it is
  single it is no message. -/
  implicit : ∀ m, p.IsType m → ∀ f ∈ m.fields, f.presence = false →
    f.oneof = none ∧ (f.repeated ∨ ∀ name, f.type ≠ .message name)
  /-- The enumeration that a field names is there. -/
  enums : ∀ m, p.IsType m → ∀ f ∈ m.fields, ∀ name, f.type = .enum name →
    ∃ e, p.enumType? name = some e
  /-- The key and the value of an entry of a map are single. -/
  entries : ∀ m, p.IsType m → m.mapEntry → ∀ f ∈ m.fields, f.repeated = false
  /-- The numbers of the values of enumerations have 32 bits. -/
  enumNumbers : ∀ e ∈ p.enums, ∀ x ∈ e.values, Numeric.hasWidth 32 x.2
  /-- No enumeration has two values of one name. -/
  enumNames : ∀ e ∈ p.enums, (e.values.map Prod.fst).Nodup

/-! ## What a linked pool is made of -/

theorem contents_of_linkIn {f : FileDecl} (h : linkIn files f = .ok p) :
    (f.allMessages.mapM fun (full, d) ↦ linkMessage f.modern (seenBy files f) full d) =
        .ok p.messages ∧
      (f.allEnums.mapM fun (scope, d) ↦ linkEnum f.modern scope d) = .ok p.enums ∧
      (f.allExtensions.mapM fun (scope, d) ↦
        linkExtension f.modern (seenBy files f) (messagesOf files) scope d) = .ok p.extensions := by
  rw [linkIn_eq (imports_of_linkIn_eq_ok h)] at h
  obtain ⟨-, -, h⟩ := bind_eq_ok_iff.1 h
  obtain ⟨-, -, h⟩ := bind_eq_ok_iff.1 h
  obtain ⟨messages, hmessages, h⟩ := bind_eq_ok_iff.1 h
  obtain ⟨enums, henums, h⟩ := bind_eq_ok_iff.1 h
  obtain ⟨services, -, h⟩ := bind_eq_ok_iff.1 h
  obtain ⟨extensions, hextensions, h⟩ := bind_eq_ok_iff.1 h
  obtain rfl := Except.ok.inj h
  exact ⟨hmessages, henums, hextensions⟩

section Linked

variable (h : link files = .ok p)

include h

/-- What of one kind a linked pool has comes from the declarations in its files. -/
theorem exists_declaration {γ δ : Type} {part : Pool → List γ} {declared : FileDecl → List δ}
    {linkPart : FileDecl → δ → Except LinkFault γ}
    (hpart : ∀ p q : Pool, part (p.append q) = part p ++ part q) (hempty : part {} = [])
    (hcontents : ∀ f q, linkIn files f = .ok q → (declared f).mapM (linkPart f) = .ok (part q))
    {x : γ} (hx : x ∈ part p) : ∃ f ∈ files, ∃ d ∈ declared f, linkPart f d = .ok x := by
  obtain ⟨-, ps, hps, rfl⟩ := link_eq_ok h
  rw [parts_foldl_append part hpart, hempty, List.nil_append] at hx
  obtain ⟨q, hq, hx⟩ := List.mem_flatMap.1 hx
  obtain ⟨f, hf, hlink⟩ := exists_of_mem_mapM hps hq
  exact ⟨f, hf, exists_of_mem_mapM (hcontents f q hlink) hx⟩

theorem exists_messageDecl (hm : m ∈ p.messages) : ∃ f ∈ files, ∃ full d,
    (full, d) ∈ f.allMessages ∧ linkMessage f.modern (seenBy files f) full d = .ok m := by
  obtain ⟨f, hf, ⟨full, d⟩, hd, hlinked⟩ := exists_declaration h (fun _ _ ↦ rfl) rfl
    (fun _ _ hlink ↦ (contents_of_linkIn hlink).1) hm
  exact ⟨f, hf, full, d, hd, hlinked⟩

theorem exists_enumDecl {e : EnumType} (he : e ∈ p.enums) : ∃ f ∈ files, ∃ scope d,
    (scope, d) ∈ f.allEnums ∧ linkEnum f.modern scope d = .ok e := by
  obtain ⟨f, hf, ⟨scope, d⟩, hd, hlinked⟩ := exists_declaration h (fun _ _ ↦ rfl) rfl
    (fun _ _ hlink ↦ (contents_of_linkIn hlink).2.1) he
  exact ⟨f, hf, scope, d, hd, hlinked⟩

theorem exists_extensionDecl {x : String × String × Field} (hx : x ∈ p.extensions) :
    ∃ f ∈ files, ∃ scope d, (scope, d) ∈ f.allExtensions ∧
      linkExtension f.modern (seenBy files f) (messagesOf files) scope d = .ok x := by
  obtain ⟨f, hf, ⟨scope, d⟩, hd, hlinked⟩ := exists_declaration h (fun _ _ ↦ rfl) rfl
    (fun _ _ hlink ↦ (contents_of_linkIn hlink).2.2) hx
  exact ⟨f, hf, scope, d, hd, hlinked⟩

theorem exists_enumType {f : FileDecl} (hf : f ∈ files) {scope : String} {d : EnumDecl}
    (hd : (scope, d) ∈ f.allEnums) : ∃ e ∈ p.enums, linkEnum f.modern scope d = .ok e := by
  obtain ⟨-, ps, hps, rfl⟩ := link_eq_ok h
  obtain ⟨q, hq, hlink⟩ := exists_mem_mapM hps hf
  obtain ⟨e, he, hlinked⟩ := exists_mem_mapM (contents_of_linkIn hlink).2.1 hd
  rw [parts_foldl_append Pool.enums fun _ _ ↦ rfl, List.nil_append]
  exact ⟨e, List.mem_flatMap.2 ⟨q, hq, he⟩, hlinked⟩

end Linked

/-! ## What linking checks -/

theorem of_linkMessage {modern : Bool} {ds : List Definition} {full : String} {d : MessageDecl}
    (h : linkMessage modern ds full d = .ok m) :
    m.symbol.full = full ∧ (m.fields.map (·.number)).Nodup ∧ (m.fields.map (·.jsonName)).Nodup ∧
      ∀ f ∈ m.fields, ∃ a ∈ d.fields, linkField modern ⟨ds, full⟩ d a = .ok f := by
  obtain ⟨fields, hfields, h⟩ := bind_eq_ok_iff.1 h
  obtain ⟨u, hnumbers, h⟩ := bind_eq_ok_iff.1 h
  obtain ⟨u', hnames, h⟩ := bind_eq_ok_iff.1 h
  obtain ⟨-, -, h⟩ := bind_eq_ok_iff.1 h
  obtain rfl := Except.ok.inj h
  exact ⟨rfl, of_decide_eq_true (require_eq_ok_iff.1 hnumbers),
    of_decide_eq_true (require_eq_ok_iff.1 hnames), fun f hf ↦ exists_of_mem_mapM hfields hf⟩

theorem of_linkField {modern : Bool} {s : Scope} {d : MessageDecl} {a : FieldDecl}
    (h : linkField modern s d a = .ok f) :
    isFieldNumber a.number ∧ inRanges d.extensible a.number = false ∧ ∃ t, s.typeOf a = .ok t ∧
      f = a.link modern (a.jsonName.getD (jsonNameOf a.name)) t := by
  obtain ⟨u, hnumber, h⟩ := bind_eq_ok_iff.1 h
  obtain ⟨-, -, h⟩ := bind_eq_ok_iff.1 h
  obtain ⟨t, ht, h⟩ := bind_eq_ok_iff.1 h
  obtain rfl := Except.ok.inj h
  obtain ⟨hnumber, hranges⟩ := Bool.and_eq_true_iff.1 (require_eq_ok_iff.1 hnumber)
  refine ⟨hnumber, ?_, t, ht, rfl⟩
  rw [Bool.not_eq_true', inRanges, List.any_append, Bool.or_eq_false_iff] at hranges
  exact hranges.2

theorem FieldDecl.packed_link {modern : Bool} {a : FieldDecl} {t : FieldType} (name : String)
    (hpacked : (a.link modern name t).packed) :
    (a.link modern name t).repeated ∧ t.isPackable := by
  obtain ⟨hleft, -⟩ := Bool.and_eq_true_iff.1 hpacked
  exact Bool.and_eq_true_iff.1 hleft

/-- A field that has a value without being set is no alternative, and a single one is no message. -/
theorem FieldDecl.implicit_link {modern : Bool} {a : FieldDecl} {t : FieldType} (name : String)
    (hpresence : (a.link modern name t).presence = false) :
    (a.link modern name t).oneof = none ∧
      ((a.link modern name t).repeated ∨ ∀ other, t ≠ .message other) := by
  obtain ⟨hleft, himplicit⟩ := Bool.or_eq_false_iff.1 hpresence
  obtain ⟨-, honeof⟩ := Bool.or_eq_false_iff.1 hleft
  rw [Option.isSome_eq_false_iff, Option.isNone_iff_eq_none] at honeof
  refine ⟨congrArg (Option.map Int.toNat) honeof, ?_⟩
  by_cases hrepeated : (a.label == .repeated) = true
  · exact .inl hrepeated
  · right
    rintro other rfl
    rw [Bool.not_eq_true] at hrepeated
    rw [hrepeated] at himplicit
    cases himplicit

/-- What linking makes of the declaration of an extension in a scope: its full name, the message
type that it extends and the field that it adds. -/
structure Extends (messages : List (String × MessageDecl)) (scope : String) (a : FieldDecl)
    (x : String × String × Field) : Prop where
  full_eq : x.1 = qualify scope a.name
  /-- The name in JSON is the full name in brackets. -/
  jsonName_eq : x.2.2.jsonName = "[" ++ x.1 ++ "]"
  number_eq : x.2.2.number = a.number.toNat
  /-- The message type leaves the number to extensions. -/
  inRanges : ∀ d, messages.lookup x.2.1 = some d → inRanges d.extensible a.number
  presence_eq : x.2.2.presence = !x.2.2.repeated
  packed : x.2.2.packed → x.2.2.repeated ∧ x.2.2.type.isPackable

theorem extends_of_linkExtension {modern : Bool} {ds : List Definition}
    {messages : List (String × MessageDecl)} {scope : String} {a : FieldDecl}
    {x : String × String × Field} (h : linkExtension modern ds messages scope a = .ok x) :
    Extends messages scope a x := by
  obtain ⟨d, hd, h⟩ := bind_eq_ok_iff.1 h
  obtain ⟨u, hrange, h⟩ := bind_eq_ok_iff.1 h
  obtain ⟨t, ht, h⟩ := bind_eq_ok_iff.1 h
  obtain rfl := Except.ok.inj h
  refine ⟨rfl, rfl, rfl, fun declared hdeclared ↦ ?_, rfl,
    FieldDecl.packed_link ("[" ++ qualify scope a.name ++ "]")⟩
  have hin := require_eq_ok_iff.1 hrange
  dsimp only at hdeclared
  rwa [hdeclared] at hin

theorem eq_of_linkEnum {modern : Bool} {scope : String} {d : EnumDecl} {e : EnumType}
    (h : linkEnum modern scope d = .ok e) : e = ⟨qualify scope d.name, d.values⟩ := by
  obtain ⟨-, -, h⟩ := bind_eq_ok_iff.1 h
  obtain ⟨-, -, h⟩ := bind_eq_ok_iff.1 h
  obtain ⟨-, -, h⟩ := bind_eq_ok_iff.1 h
  obtain ⟨-, -, h⟩ := bind_eq_ok_iff.1 h
  exact (Except.ok.inj h).symm

theorem isField_of_isFieldNumber {n : Int} (h : isFieldNumber n) : IsField n.toNat := by
  rw [isFieldNumber, Bool.and_eq_true, Bool.and_eq_true, decide_eq_true_iff,
    decide_eq_true_iff] at h
  obtain ⟨⟨hlow, hhigh⟩, -⟩ := h
  exact ⟨by omega, by omega⟩

/-! ## Names that do not clash -/

theorem FileDecl.enum_of_mem_definitions {f : FileDecl} {d : Definition} (h : d ∈ f.definitions)
    (hkind : d.kind = .enum) : ∃ scope e, (scope, e) ∈ f.allEnums ∧
      qualify scope e.name = d.symbol.full := by
  simp only [definitions, List.mem_append, List.mem_flatMap, List.mem_cons, List.mem_map,
    Prod.exists] at h
  rcases h with (((h | ⟨full, m, hm, (rfl | ⟨a, -, rfl⟩) | ⟨a, -, rfl⟩⟩) |
    ⟨scope, e, he, rfl | ⟨a, b, -, rfl⟩⟩) | ⟨s, -, rfl | ⟨m, -, rfl⟩⟩) | ⟨scope, e, -, rfl⟩
  · split at h
    · cases h
    · obtain ⟨n, -, rfl⟩ := List.mem_map.1 h
      cases hkind
  · cases hkind
  · cases hkind
  · cases hkind
  · exact ⟨scope, e, he, rfl⟩
  all_goals cases hkind

theorem FileDecl.parts_pairwise {f : FileDecl} (h : NoClash f.definitions) :
    (∀ x ∈ f.allEnums, (x.2.values.map Prod.fst).Nodup) ∧
      f.allExtensions.Pairwise fun a b ↦ qualify a.1 a.2.name ≠ qualify b.1 b.2.name := by
  -- The definitions are those of packages, message types, enumerations, services, extensions.
  obtain ⟨h, hextensions, -⟩ := List.pairwise_append.1 h
  obtain ⟨h, -, -⟩ := List.pairwise_append.1 h
  obtain ⟨-, henums, -⟩ := List.pairwise_append.1 h
  constructor
  · intro x hx
    obtain ⟨-, hvalues⟩ := List.pairwise_cons.1 ((List.pairwise_flatMap.1 henums).1 x hx)
    refine List.pairwise_map.2 ((List.pairwise_map.1 hvalues).imp fun {a b} hab heq ↦ ?_)
    cases (compatible_iff.1 hab (congrArg (qualify x.1) heq)).1
  · refine (List.pairwise_map.1 hextensions).imp fun {a b} hab heq ↦ ?_
    cases (compatible_iff.1 hab heq).1

theorem FileDecl.extension_mem_definitions {f : FileDecl} {x : String × FieldDecl}
    (h : x ∈ f.allExtensions) : ⟨.of x.1 x.2.name, .part, f.name⟩ ∈ f.definitions := by
  simp only [definitions, List.mem_append]
  exact .inr (List.mem_map.2 ⟨x, h, rfl⟩)

theorem WellFormed.extensions_pairwise (h : WellFormed files) :
    (files.flatMap FileDecl.allExtensions).Pairwise fun a b ↦
      qualify a.1 a.2.name ≠ qualify b.1 b.2.name := by
  refine List.pairwise_flatMap.2 ⟨fun f hf ↦ (FileDecl.parts_pairwise (h.noClash_file hf)).2, ?_⟩
  refine (noClash_definitionsOf_iff.1 h.noClash).2.imp fun hapart a ha b hb heq ↦ ?_
  have hcompatible := hapart _ (FileDecl.extension_mem_definitions ha) _
    (FileDecl.extension_mem_definitions hb)
  cases (compatible_iff.1 hcompatible heq).1

/-- What linking makes sure of a field of a message type. -/
structure Pool.Checks (p : Pool) (m : MessageType) (f : Field) : Prop where
  /-- The number can be written. -/
  isField : IsField f.number
  /-- Only lists of numbers are packed. -/
  packed : f.packed → f.repeated ∧ f.type.isPackable
  /-- If it has a value without being set, it is no alternative, and if it is single no message. -/
  implicit : f.presence = false → f.oneof = none ∧ (f.repeated ∨ ∀ name, f.type ≠ .message name)
  /-- The enumeration that it names is there. -/
  enum : ∀ name, f.type = .enum name → ∃ e ∈ p.enums, e.name = name
  /-- No extension of the message type has its number. -/
  number_ne : ∀ x ∈ p.extensions, x.2.1 = m.symbol.full → x.2.2.number ≠ f.number

section Linked

variable (h : link files = .ok p)

include h

theorem nodup_extensions : (p.extensions.map (·.1)).Nodup := by
  obtain ⟨hwell, ps, hps, rfl⟩ := link_eq_ok h
  have hnames (f : FileDecl) (q : Pool) (hq : linkIn files f = .ok q) :
      q.extensions.map (·.1) = f.allExtensions.map fun x ↦ qualify x.1 x.2.name :=
    map_eq_of_mapM (contents_of_linkIn hq).2.2 fun _ _ hx ↦ (extends_of_linkExtension hx).full_eq
  rw [parts_foldl_append Pool.extensions fun _ _ ↦ rfl, List.nil_append, List.map_flatMap,
    List.flatMap_def, map_eq_of_mapM hps hnames, ← List.flatMap_def, ← List.map_flatMap]
  exact List.pairwise_map.2 hwell.extensions_pairwise

theorem exists_enum_of_typeOf {file : FileDecl} {full name : String} {a : FieldDecl}
    (ht : Scope.typeOf ⟨seenBy files file, full⟩ a = .ok (.enum name)) :
    ∃ e ∈ p.enums, e.name = name := by
  rw [Scope.typeOf] at ht
  split at ht
  · obtain ⟨definition, hresolve, ht⟩ := bind_eq_ok_iff.1 ht
    obtain ⟨hmem, -⟩ := mem_of_resolve_eq_ok hresolve
    obtain ⟨g, hg, hdefinition, -⟩ := mem_seenBy.1 hmem
    by_cases hkind : definition.kind = .enum
    · rw [if_pos hkind] at ht
      obtain ⟨scope, d, hd, hname⟩ := FileDecl.enum_of_mem_definitions hdefinition hkind
      obtain ⟨e, he, hlinked⟩ := exists_enumType h hg hd
      refine ⟨e, he, ?_⟩
      rw [eq_of_linkEnum hlinked]
      exact hname.trans (FieldType.enum.inj (Except.ok.inj ht))
    · rw [if_neg hkind] at ht
      cases Except.ok.inj ht
  all_goals cases ht

theorem exists_inRanges {x : String × String × Field} (hx : x ∈ p.extensions) {file : FileDecl}
    (hfile : file ∈ files) {d : MessageDecl} (hd : (x.2.1, d) ∈ file.allMessages) :
    ∃ b : FieldDecl, x.2.2.number = b.number.toNat ∧ inRanges d.extensible b.number := by
  obtain ⟨g, -, scope, b, -, hextension⟩ := exists_extensionDecl h hx
  have hextends := extends_of_linkExtension hextension
  have hlookup : (messagesOf files).lookup x.2.1 = some d :=
    lookup_eq_some (link_eq_ok h).1.messages_pairwise (List.mem_flatMap.2 ⟨file, hfile, hd⟩)
  exact ⟨b, hextends.number_eq, hextends.inRanges d hlookup⟩

/-- **What linking checks of a field.** -/
theorem checks_of_link (hm : m ∈ p.messages) (hf : f ∈ m.fields) : p.Checks m f := by
  obtain ⟨file, hfile, full, d, hd, hlink⟩ := exists_messageDecl h hm
  obtain ⟨rfl, -, -, hfields⟩ := of_linkMessage hlink
  obtain ⟨a, ha, hfield⟩ := hfields f hf
  obtain ⟨hnumber, hranges, t, ht, rfl⟩ := of_linkField hfield
  refine ⟨isField_of_isFieldNumber hnumber, FieldDecl.packed_link _, FieldDecl.implicit_link _,
    fun name hname ↦ ?_, fun x hx heq hxnumber ↦ ?_⟩
  · obtain rfl : t = .enum name := hname
    exact exists_enum_of_typeOf h ht
  · -- The message type leaves the number of the extension to extensions, and not that of the field.
    obtain ⟨b, hb, hin⟩ := exists_inRanges h hx hfile (heq ▸ hd)
    have hpositive := (isField_of_isFieldNumber hnumber).1
    have hsame : b.number = a.number := by
      have : b.number.toNat = a.number.toNat := hb.symm.trans hxnumber
      omega
    rw [hsame, hranges] at hin
    cases hin

end Linked

theorem mem_extensionsOf : f ∈ p.extensionsOf m ↔
    ∃ x ∈ p.extensions, x.2.1 = m.symbol.full ∧ x.2.2 = f := by
  rw [Pool.extensionsOf, List.mem_filterMap]
  constructor
  · rintro ⟨x, hx, h⟩
    rw [Option.ite_none_right_eq_some] at h
    exact ⟨x, hx, h.1, Option.some.inj h.2⟩
  · rintro ⟨x, hx, hm, rfl⟩
    exact ⟨x, hx, if_pos hm⟩

theorem mem_extended : f ∈ (p.extended m).fields ↔ f ∈ m.fields ∨ f ∈ p.extensionsOf m :=
  List.mem_append

/-- What tells extensions of a message type apart tells their fields apart. -/
theorem nodup_extensionsOf {α : Type} (key : Field → α)
    (h : p.extensions.Pairwise fun x y ↦ x.2.1 = y.2.1 → key x.2.2 ≠ key y.2.2) :
    ((p.extensionsOf m).map key).Nodup := by
  refine List.pairwise_map.2 (List.pairwise_filterMap.2 (h.imp ?_))
  intro x y hxy f hf g hg
  rw [Option.ite_none_right_eq_some] at hf hg
  obtain ⟨hx, hf⟩ := hf
  obtain ⟨hy, hg⟩ := hg
  exact Option.some.inj hf ▸ Option.some.inj hg ▸ hxy (hx.trans hy.symm)

/-- A message type has its fields and no two of them agree in what none of them shares with another
or with an extension. -/
theorem nodup_extended {α : Type} (key : Field → α) (hown : (m.fields.map key).Nodup)
    (hextensions : ((p.extensionsOf m).map key).Nodup)
    (hapart : ∀ f ∈ m.fields, ∀ g ∈ p.extensionsOf m, key f ≠ key g) :
    ((p.extended m).fields.map key).Nodup := by
  rw [Pool.extended, List.map_append, List.nodup_append]
  refine ⟨hown, hextensions, ?_⟩
  intro a ha b hb
  obtain ⟨f, hf, rfl⟩ := List.mem_map.1 ha
  obtain ⟨g, hg, rfl⟩ := List.mem_map.1 hb
  exact hapart f hf g hg

/-- **What reading and writing messages relies on holds in linked and regular pools.** -/
theorem sound_of_link (h : link files = .ok p) (regular : p.Regular) : p.Sound where
  numbers m hm := by
    refine nodup_extended _ ?_ (nodup_extensionsOf _ ?_) fun f hf g hg ↦ ?_
    · rcases hm with hm | ⟨hnone, -⟩
      · obtain ⟨f, -, full, d, -, hlink⟩ := exists_messageDecl h hm
        obtain ⟨-, hnumbers, -⟩ := of_linkMessage hlink
        exact hnumbers
      · rw [hnone]
        exact List.nodup_nil
    · refine (List.pairwise_map.1 regular.extensions_apart).imp fun hxy heq hnumber ↦ ?_
      exact hxy (Prod.ext heq hnumber)
    · obtain ⟨x, hx, hname, rfl⟩ := mem_extensionsOf.1 hg
      exact ((checks_of_link h (hm.mem hf) hf).number_ne x hx hname).symm
  jsonNames m hm := by
    refine nodup_extended _ ?_ (nodup_extensionsOf _ ?_) fun f hf g hg ↦ ?_
    · rcases hm with hm | ⟨hnone, -⟩
      · obtain ⟨f, -, full, d, -, hlink⟩ := exists_messageDecl h hm
        obtain ⟨-, -, hnames, -⟩ := of_linkMessage hlink
        exact hnames
      · rw [hnone]
        exact List.nodup_nil
    · refine (List.pairwise_map.1 (nodup_extensions h)).imp_of_mem fun {x y} hx hy hxy _ heq ↦ ?_
      obtain ⟨f, -, scope, a, -, hlinkx⟩ := exists_extensionDecl h hx
      obtain ⟨g, -, scope', b, -, hlinky⟩ := exists_extensionDecl h hy
      rw [(extends_of_linkExtension hlinkx).jsonName_eq,
        (extends_of_linkExtension hlinky).jsonName_eq, String.append_left_inj,
        String.append_right_inj] at heq
      exact hxy heq
    · obtain ⟨x, hx, -, rfl⟩ := mem_extensionsOf.1 hg
      exact regular.extension_names m (hm.mem hf) f hf x hx
  isField m hm f hf := by
    rcases mem_extended.1 hf with hf | hf
    · exact (checks_of_link h (hm.mem hf) hf).isField
    · obtain ⟨x, hx, -, rfl⟩ := mem_extensionsOf.1 hf
      exact regular.extension_numbers x hx
  packed m hm f hf := by
    rcases mem_extended.1 hf with hf | hf
    · exact (checks_of_link h (hm.mem hf) hf).packed
    · obtain ⟨x, hx, -, rfl⟩ := mem_extensionsOf.1 hf
      obtain ⟨f, -, scope, a, -, hlink⟩ := exists_extensionDecl h hx
      exact (extends_of_linkExtension hlink).packed
  repeated m hm f hf hrepeated := by
    rcases mem_extended.1 hf with hf | hf
    · exact regular.repeated_implicit m (hm.mem hf) f hf hrepeated
    · obtain ⟨x, hx, -, rfl⟩ := mem_extensionsOf.1 hf
      obtain ⟨f, -, scope, a, -, hlink⟩ := exists_extensionDecl h hx
      rw [(extends_of_linkExtension hlink).presence_eq, hrepeated]
      rfl
  extension m hm f hf hpresence := by
    obtain ⟨x, hx, -, rfl⟩ := mem_extensionsOf.1 hf
    obtain ⟨f, -, scope, a, -, hlink⟩ := exists_extensionDecl h hx
    rw [(extends_of_linkExtension hlink).presence_eq] at hpresence
    rwa [Bool.not_eq_false'] at hpresence
  implicit m hm f hf := (checks_of_link h (hm.mem hf) hf).implicit
  enums m hm f hf name hname := by
    obtain ⟨e, he, rfl⟩ := (checks_of_link h (hm.mem hf) hf).enum name hname
    have hsome : (p.enumType? e.name).isSome := by
      rw [Pool.enumType?, List.find?_isSome]
      exact ⟨e, he, beq_self_eq_true e.name⟩
    exact Option.isSome_iff_exists.1 hsome
  entries m hm hentry f hf := regular.entries_single m (hm.mem hf) hentry f hf
  enumNumbers := regular.enum_numbers
  enumNames e he := by
    obtain ⟨f, hf, scope, d, hd, hlink⟩ := exists_enumDecl h he
    rw [eq_of_linkEnum hlink]
    exact (FileDecl.parts_pairwise ((link_eq_ok h).1.noClash_file hf)).1 _ hd

end CallCheck.Schema

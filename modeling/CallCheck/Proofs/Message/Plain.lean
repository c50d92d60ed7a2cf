import CallCheck.Message.Json
import CallCheck.Message.Wire
import CallCheck.Proofs.Json.Members
import CallCheck.Proofs.Schema.Linking
import CallCheck.Proofs.Text.Base64
import CallCheck.Proofs.Text.Utf8
import CallCheck.Proofs.Wire.Records

/-!
# Values without parts

Which values a type without parts can have (`Message.FitsPlain`), and that they go to text and back
and to bytes and back. On the wire every such value is read as itself. In text floating point
numbers need not be: those that are not finite are named, and of the others each is taken to be read
as itself (`Value.IsReadBack`).
-/

namespace CallCheck.Message

open Numeric Schema Wire

variable {p : Pool} {t : FieldType} {f : Field} {s : Scalar} {v : Value} {low high i : Int}

/-- A value that a type without parts can have. -/
inductive FitsPlain (p : Pool) : FieldType → Value → Prop
  | int {s : Scalar} {low high i : Int} : bounds? s = some (low, high) → low ≤ i → i ≤ high →
      FitsPlain p (.scalar s) (.int i)
  | bool (b : Bool) : FitsPlain p (.scalar .bool) (.bool b)
  | float (x : Binary32) : FitsPlain p (.scalar .float) (.float x)
  | double (x : Binary64) : FitsPlain p (.scalar .double) (.double x)
  | string (s : String) : FitsPlain p (.scalar .string) (.string s)
  | bytes (bs : List UInt8) : FitsPlain p (.scalar .bytes) (.bytes bs)
  | enum {name : String} {e : EnumType} {i : Int} : p.enumType? name = some e → hasWidth 32 i →
      FitsPlain p (.enum name) (.int i)

/-- A key that the maps of a type of keys can have. -/
inductive FitsKey : FieldType → Value → Prop
  | int {s : Scalar} {low high i : Int} : bounds? s = some (low, high) → low ≤ i → i ≤ high →
      FitsKey (.scalar s) (.int i)
  | bool (b : Bool) : FitsKey (.scalar .bool) (.bool b)
  | string (s : String) : FitsKey (.scalar .string) (.string s)

/-- A floating point number that is rendered as a number is read as itself again. -/
def Value.IsReadBack : Value → Prop
  | .float x => x.toBinary64.isFinite → ∃ y, (Json.Number.real x.toBinary64).reread? =
      some (.real y) ∧ fitsFloat y ∧ Binary32.ofBinary64 y = x
  | .double x => x.isFinite → (Json.Number.real x).reread? = some (.real x)
  | _ => True

instance : DecidablePred Value.IsReadBack
  | .float x =>
    match h : (Json.Number.real x.toBinary64).reread? with
    | some (.real y) =>
      decidable_of_iff (x.toBinary64.isFinite → fitsFloat y ∧ Binary32.ofBinary64 y = x) <| by
        simp [Value.IsReadBack, h]
    | some (.int _) | none =>
      decidable_of_iff (¬x.toBinary64.isFinite) <| by simp [Value.IsReadBack, h]
  | .double x => inferInstanceAs (Decidable (x.isFinite → _ = _))
  | .int _ | .bool _ | .string _ | .bytes _ | .message .. | .list _ | .map _ =>
    inferInstanceAs (Decidable True)

theorem FitsKey.fitsPlain {k : Value} (h : FitsKey t k) : FitsPlain p t k := by
  cases h with
  | int hbounds hlow hhigh => exact .int hbounds hlow hhigh
  | bool b => exact .bool b
  | string s => exact .string s

theorem bounds?_le (h : bounds? s = some (low, high)) :
    -(capacity 63 : Int) ≤ low ∧ low ≤ 0 ∧ 0 ≤ high ∧ high < capacity 64 := by
  have hbounds : ∀ b ∈ [(minSigned 32, (maxSigned 32 : Int)), (0, (maxUnsigned 32 : Int)),
      (minSigned 64, (maxSigned 64 : Int)), (0, (maxUnsigned 64 : Int))],
      -(capacity 63 : Int) ≤ b.1 ∧ b.1 ≤ 0 ∧ 0 ≤ b.2 ∧ b.2 < capacity 64 := by
    decide
  refine hbounds (low, high) ?_
  cases s <;> simp only [bounds?, Option.some.injEq, reduceCtorEq] at h <;> rw [← h] <;> decide

/-! ## What is read -/

/-- The integer that a text in decimal writes, whatever the bounds, save that there is no minus sign
where no negative number is allowed. -/
def signed? (low : Int) : List Char → Option Int
  | '+' :: ds => (nat? ds).map Int.ofNat
  | '-' :: ds => if low < 0 then (nat? ds).map fun n ↦ -(n : Int) else none
  | ds => (nat? ds).map Int.ofNat

theorem intIn?_eq (cs : List Char) : intIn? low high cs =
    (signed? low cs).bind fun i ↦ if low ≤ i ∧ i ≤ high then some i else none := by
  unfold intIn?
  split
  · rfl
  · rw [signed?]
    split <;> rfl
  · next hplus hminus =>
    rw [signed?.eq_3 low cs hplus hminus]
    rfl

theorem bounds_of_intIn? {cs : List Char} (h : intIn? low high cs = some i) :
    low ≤ i ∧ i ≤ high := by
  rw [intIn?_eq] at h
  obtain ⟨n, -, h⟩ := Option.bind_eq_some_iff.1 h
  rw [Option.ite_none_right_eq_some] at h
  exact Option.some.inj h.2 ▸ h.1

theorem readInt?_bounds (hle : low ≤ high) {j : Json} (h : readInt? low high j = some i) :
    low ≤ i ∧ i ≤ high := by
  unfold readInt? at h
  split at h
  · rw [Option.ite_none_right_eq_some] at h
    exact Option.some.inj h.2 ▸ h.1
  · obtain ⟨n, -, h⟩ := Option.bind_eq_some_iff.1 h
    unfold saturate at h
    split at h
    · next hn => exact Option.some.inj h ▸ hn
    · rw [Option.ite_none_right_eq_some] at h
      exact Option.some.inj h.2 ▸ ⟨hle, Int.le_refl _⟩
  · exact bounds_of_intIn? h
  · cases h

theorem readScalar?_of_bounds (h : bounds? s = some (low, high)) (j : Json) :
    readScalar? s j = (readInt? low high j).map .int := by
  unfold readScalar?
  rw [h]

theorem fitsPlain_of_readScalar? {j : Json} (h : readScalar? s j = some v) :
    FitsPlain p (.scalar s) v := by
  unfold readScalar? at h
  split at h
  · next low high hbounds =>
    obtain ⟨i, hi, rfl⟩ := Option.map_eq_some_iff.1 h
    have hle := bounds?_le hbounds
    obtain ⟨hlow, hhigh⟩ := readInt?_bounds (hle.2.1.trans hle.2.2.1) hi
    exact .int hbounds hlow hhigh
  · split at h
    · exact Option.some.inj h ▸ .bool _
    · exact Option.some.inj h ▸ .string _
    · obtain ⟨bs, -, rfl⟩ := Option.map_eq_some_iff.1 h
      exact .bytes bs
    · exact Option.some.inj h ▸ .double _
    · exact Option.some.inj h ▸ .double _
    · obtain ⟨x, -, rfl⟩ := Option.map_eq_some_iff.1 h
      exact .double x
    · exact Option.some.inj h ▸ .float _
    · rw [Option.ite_none_right_eq_some] at h
      exact Option.some.inj h.2 ▸ .float _
    · obtain ⟨x, -, rfl⟩ := Option.map_eq_some_iff.1 h
      exact .float x
    · cases h

/-- The numbers of the values of enumerations are integers of 32 bits. -/
def EnumsFit (p : Pool) : Prop := ∀ e ∈ p.enums, ∀ x ∈ e.values, hasWidth 32 x.2

theorem mem_of_lookup {α β : Type} [BEq α] [LawfulBEq α] {l : List (α × β)} {a : α} {b : β}
    (h : l.lookup a = some b) : (a, b) ∈ l := by
  obtain ⟨l₁, l₂, rfl, -⟩ := List.lookup_eq_some_iff.1 h
  exact List.mem_append_right _ List.mem_cons_self

theorem fitsPlain_of_readPlain? (henums : EnumsFit p) {j : Json}
    (h : readPlain? p t j = some v) : FitsPlain p t v := by
  unfold readPlain? at h
  split at h
  · exact fitsPlain_of_readScalar? h
  · obtain ⟨i, hi, rfl⟩ := Option.map_eq_some_iff.1 h
    obtain ⟨e, he, hi⟩ := Option.bind_eq_some_iff.1 hi
    refine .enum he ?_
    unfold readEnum? at hi
    split at hi
    · exact henums e (List.mem_of_find?_eq_some he) _ (mem_of_lookup hi)
    · rw [Option.ite_none_right_eq_some] at hi
      exact Option.some.inj hi.2 ▸ hi.1
    · cases hi
  · cases h

theorem fitsKey_of_readKey? {key : String} (h : readKey? t key = some v) : FitsKey t v := by
  unfold readKey? at h
  split at h
  · exact Option.some.inj h ▸ .string key
  · split at h
    · exact Option.some.inj h ▸ .bool true
    · rw [Option.ite_none_right_eq_some] at h
      exact Option.some.inj h.2 ▸ .bool false
  · obtain ⟨⟨low, high⟩, hbounds, h⟩ := Option.bind_eq_some_iff.1 h
    obtain ⟨i, hi, rfl⟩ := Option.map_eq_some_iff.1 h
    obtain ⟨hlow, hhigh⟩ := bounds_of_intIn? hi
    exact .int hbounds hlow hhigh
  · cases h

/-! ## To text and back -/

theorem nat?_decimalDigits (n : Nat) : nat? (decimalDigits n) = some n := by
  have hall : (decimalDigits n).all isDigit = true :=
    List.all_eq_true.2 fun c ↦ Json.isDigit_of_mem_decimalDigits
  rw [nat?, if_pos ⟨Nat.toDigits_ne_nil, hall⟩, Json.natOfDigits_decimalDigits]

theorem intIn?_toString (hlow : low ≤ i) (hhigh : i ≤ high) :
    intIn? low high (toString i).toList = some i := by
  have hsigned : signed? low (toString i).toList = some i := by
    change signed? low (Json.writeNumber (.int i)) = some i
    cases i with
    | ofNat n =>
      have hdigit {c : Char} {ds : List Char} (h : decimalDigits n = c :: ds) :
          isDigit c = true := Json.isDigit_of_mem_decimalDigits (h ▸ List.mem_cons_self)
      rw [Json.writeNumber_ofNat, signed?.eq_3, nat?_decimalDigits]
      · rfl
      · intro ds h
        cases hdigit h
      · intro ds h
        cases hdigit h
    | negSucc n =>
      rw [Json.writeNumber_negSucc, signed?, if_pos (by omega), nat?_decimalDigits]
      rfl
  rw [intIn?_eq, hsigned, Option.bind_some, if_pos ⟨hlow, hhigh⟩]

theorem FitsKey.readKey?_writeKey {k : Value} (h : FitsKey t k) :
    readKey? t (writeKey k) = some k := by
  cases h with
  | @int s low high i hbounds hlow hhigh =>
    have hread : (bounds? s).bind (fun b ↦
        (intIn? b.1 b.2 (toString i).toList).map Value.int) = some (.int i) := by
      rw [hbounds, Option.bind_some, intIn?_toString hlow hhigh]
      rfl
    unfold readKey?
    split
    · next heq =>
      cases heq
      cases hbounds
    · next heq =>
      cases heq
      cases hbounds
    · next heq =>
      cases heq
      exact hread
    · next hne => exact absurd rfl (hne s)
  | bool b => cases b <;> rfl
  | string s => rfl

/-- A document without parts that is there. -/
def IsAtom : Json → Prop
  | .bool _ | .number _ | .string _ => True
  | _ => False

theorem readSingle?_of_isAtom {j : Json} (h : IsAtom j) : readSingle? p t j = readPlain? p t j := by
  cases j with
  | bool b => rw [readSingle?]
  | number n => rw [readSingle?]
  | string s => rw [readSingle?]
  | null => exact h.elim
  | array items => exact h.elim
  | object members => exact h.elim

/-- A number that is finite is written as a number, and every other is named. -/
theorem writeReal_cases (x : Binary64) : (x.isFinite ∧ writeReal x = .number (.real x)) ∨
    ∃ name ∈ ["NaN", "Infinity", "-Infinity"], writeReal x = .string name := by
  rw [writeReal, Binary64.isFinite]
  cases x.unpack with
  | nan => exact .inr ⟨"NaN", List.mem_cons_self, rfl⟩
  | infinite negative =>
    right
    cases negative with
    | false => exact ⟨"Infinity", by decide, rfl⟩
    | true => exact ⟨"-Infinity", by decide, rfl⟩
  | finite negative m e => exact .inl ⟨rfl, rfl⟩

theorem exists_named : ∀ name ∈ ["NaN", "Infinity", "-Infinity"],
    (∃ y, Binary64.ofNumeral? name = some y ∧ writeReal y = .string name) ∧
      ∃ y, Binary32.ofNumeral? name = some y ∧ writeReal y.toBinary64 = .string name := by
  refine List.forall_mem_cons.2 ⟨⟨⟨_, rfl, rfl⟩, ⟨_, rfl, rfl⟩⟩, List.forall_mem_cons.2
    ⟨⟨⟨_, rfl, rfl⟩, ⟨_, rfl, rfl⟩⟩, List.forall_mem_singleton.2 ⟨⟨_, rfl, rfl⟩, ⟨_, rfl, rfl⟩⟩⟩⟩

theorem writeInt_scalar (p : Pool) (s : Scalar) (i : Int) :
    writeInt p (.scalar s) i = .string (toString i) ∨ writeInt p (.scalar s) i = .int i := by
  cases s <;> first | exact .inl rfl | exact .inr rfl

/-- No enumeration has two values of one name. -/
def EnumsNamed (p : Pool) : Prop := ∀ e ∈ p.enums, (e.values.map Prod.fst).Nodup

theorem readEnum?_value {e : EnumType} (hnames : (e.values.map Prod.fst).Nodup) {name : String}
    (h : e.value? i = some name) : readEnum? e (.string name) = some i := by
  obtain ⟨x, hx, rfl⟩ := Option.map_eq_some_iff.1 h
  have hfound := List.find?_some hx
  have hnumber : x.2 = i := beq_iff_eq.1 hfound
  have hmem := List.mem_of_find?_eq_some hx
  rw [readEnum?, EnumType.number?, ← hnumber]
  exact lookup_eq_some (List.pairwise_map.1 hnames) hmem

/-- A document of the value can be read, and what is read from it has the same document. -/
def ReadsBack (p : Pool) (f : Field) (v : Value) : Prop :=
  (writeValue p f v).Legible ∧ IsAtom (writeValue p f v).reread ∧
    ∃ w, readPlain? p f.type (writeValue p f v).reread = some w ∧
      writeValue p f w = writeValue p f v

theorem readsBack_of_string {text : String} (hwrite : writeValue p f v = .string text) {w : Value}
    (hread : readPlain? p f.type (.string text) = some w)
    (hsame : writeValue p f w = .string text) : ReadsBack p f v := by
  rw [ReadsBack, hwrite]
  exact ⟨trivial, trivial, w, hread, hsame⟩

theorem readsBack_of_number {n n' : Json.Number} (hwrite : writeValue p f v = .number n)
    (hreread : n.reread? = some n') {w : Value} (hread : readPlain? p f.type (.number n') = some w)
    (hsame : writeValue p f w = .number n) : ReadsBack p f v := by
  have heq : (Json.number n).reread = .number n' := by
    rw [Json.reread, hreread, Option.getD_some]
  rw [ReadsBack, hwrite, heq]
  refine ⟨?_, trivial, w, hread, hsame⟩
  rw [Json.Legible, hreread]
  rfl

theorem readsBack_int (ht : f.type = .scalar s) (hbounds : bounds? s = some (low, high))
    (hlow : low ≤ i) (hhigh : i ≤ high) : ReadsBack p f (.int i) := by
  have hread (j : Json) (hj : readInt? low high j = some i) :
      readPlain? p f.type j = some (.int i) := by
    rw [ht, readPlain?, readScalar?_of_bounds hbounds, hj, Option.map_some]
  have hwrite : writeValue p f (.int i) = writeInt p (.scalar s) i := by rw [writeValue, ht]
  rcases writeInt_scalar p s i with htext | hint
  · rw [htext] at hwrite
    exact readsBack_of_string hwrite (hread _ (intIn?_toString hlow hhigh)) hwrite
  · rw [hint] at hwrite
    obtain ⟨hleast, -, -, hgreatest⟩ := bounds?_le hbounds
    have hreread : (Json.Number.int i).reread? = some (.int i) :=
      Json.Number.readable_int (hleast.trans hlow) (Int.lt_of_le_of_lt hhigh hgreatest)
    exact readsBack_of_number hwrite hreread (hread _ (if_pos ⟨hlow, hhigh⟩)) hwrite

theorem readsBack_float {x : Binary32} (ht : f.type = .scalar .float)
    (hback : (Value.float x).IsReadBack) : ReadsBack p f (.float x) := by
  have hwrite (y : Binary32) : writeValue p f (.float y) = writeReal y.toBinary64 := by
    rw [writeValue]
  rcases writeReal_cases x.toBinary64 with ⟨hfinite, hreal⟩ | ⟨name, hname, hreal⟩
  · obtain ⟨y, hreread, hfits, hy⟩ := hback hfinite
    refine readsBack_of_number ((hwrite x).trans hreal) hreread ?_ ((hwrite x).trans hreal)
    rw [ht]
    exact (if_pos hfits).trans (congrArg (some ∘ Value.float) hy)
  · obtain ⟨-, y, hread, hnamed⟩ := exists_named name hname
    refine readsBack_of_string ((hwrite x).trans hreal) ?_ ((hwrite y).trans hnamed)
    rw [ht]
    exact congrArg (Option.map Value.float) hread

theorem readsBack_double {x : Binary64} (ht : f.type = .scalar .double)
    (hback : (Value.double x).IsReadBack) : ReadsBack p f (.double x) := by
  have hwrite (y : Binary64) : writeValue p f (.double y) = writeReal y := by rw [writeValue]
  rcases writeReal_cases x with ⟨hfinite, hreal⟩ | ⟨name, hname, hreal⟩
  · refine readsBack_of_number ((hwrite x).trans hreal) (hback hfinite) ?_
      ((hwrite x).trans hreal)
    rw [ht]
    rfl
  · obtain ⟨⟨y, hread, hnamed⟩, -⟩ := exists_named name hname
    refine readsBack_of_string ((hwrite x).trans hreal) ?_ ((hwrite y).trans hnamed)
    rw [ht]
    exact congrArg (Option.map Value.double) hread

theorem readsBack_enum {name : String} {e : EnumType} (henums : EnumsNamed p)
    (ht : f.type = .enum name) (he : p.enumType? name = some e) (hi : hasWidth 32 i) :
    ReadsBack p f (.int i) := by
  have hread (j : Json) (hj : readEnum? e j = some i) : readPlain? p f.type j = some (.int i) := by
    rw [ht, readPlain?, he]
    exact congrArg (Option.map Value.int) hj
  have hwrite : writeValue p f (.int i) = (e.value? i).elim (.int i) .string := by
    rw [writeValue, ht, writeInt, he, Option.bind_some]
    cases e.value? i <;> rfl
  cases hvalue : e.value? i with
  | some value =>
    rw [hvalue] at hwrite
    have hnames := henums e (List.mem_of_find?_eq_some he)
    exact readsBack_of_string hwrite (hread _ (readEnum?_value hnames hvalue)) hwrite
  | none =>
    rw [hvalue] at hwrite
    have hbounds : -(capacity 63 : Int) ≤ minSigned 32 ∧ (maxSigned 32 : Int) < capacity 64 := by
      decide
    obtain ⟨hlow, hhigh⟩ := hasWidth_iff.1 hi
    have hreread : (Json.Number.int i).reread? = some (.int i) :=
      Json.Number.readable_int (hbounds.1.trans hlow) (Int.lt_of_le_of_lt hhigh hbounds.2)
    exact readsBack_of_number hwrite hreread (hread _ (if_pos hi)) hwrite

/-- A value without parts is read from its text as a value of the same text. -/
theorem FitsPlain.readsBack (henums : EnumsNamed p) (h : FitsPlain p f.type v)
    (hback : v.IsReadBack) : ReadsBack p f v := by
  generalize ht : f.type = t at h
  cases h with
  | int hbounds hlow hhigh => exact readsBack_int ht hbounds hlow hhigh
  | bool b => exact ⟨trivial, trivial, .bool b, by rw [ht]; rfl, rfl⟩
  | float x => exact readsBack_float ht hback
  | double x => exact readsBack_double ht hback
  | string text =>
    have hwrite : writeValue p f (.string text) = .string text := by rw [writeValue]
    exact readsBack_of_string hwrite (by rw [ht]; rfl) hwrite
  | bytes bs =>
    have hwrite : writeValue p f (.bytes bs) = .string (Text.Base64.encode bs) := by
      rw [writeValue]
    refine readsBack_of_string hwrite ?_ hwrite
    rw [ht]
    exact congrArg (Option.map Value.bytes) (Text.Base64.decode?_encode bs)
  | enum he hi => exact readsBack_enum henums ht he hi

/-! ## To bytes and back -/

/-- A number that a layout has room for. -/
def Shape.Holds (n : Nat) : Shape → Prop
  | .varint | .fixed64 => n < capacity 64
  | .bytes => False
  | .fixed32 => n < capacity 32

theorem toSigned_ofSigned {width wider : Nat} (hpos : 0 < width) (hle : width ≤ wider)
    (h : hasWidth width i) : toSigned width (ofSigned wider i) = i := by
  obtain ⟨hlow, hhigh⟩ := hasWidth_iff.1 h
  obtain ⟨width, rfl⟩ : ∃ n, width = n + 1 := ⟨width - 1, by omega⟩
  have hcapacity := capacity_succ width
  have hpositive : (capacity wider : Int) ≠ 0 := by
    have := capacity_pos wider
    omega
  have hcast : ((ofSigned wider i : Nat) : Int) = i % capacity wider :=
    Int.toNat_of_nonneg (Int.emod_nonneg i hpositive)
  have hdvd : (capacity (width + 1) : Int) ∣ capacity wider :=
    Int.natCast_dvd_natCast.2 (Nat.pow_dvd_pow 2 hle)
  have hmin : minSigned (width + 1) = -(capacity width : Int) := rfl
  have hmax : maxSigned (width + 1) = capacity width - 1 := rfl
  have hwidth := capacity_pos width
  rw [toSigned, hcast, ← Int.emod_bmod, Int.emod_emod_of_dvd _ hdvd, Int.emod_bmod]
  refine Int.bmod_eq_of_le ?_ ?_
  · rw [hcapacity]
    omega
  · rw [hcapacity]
    omega

theorem ofSigned_lt (width : Nat) (i : Int) : ofSigned width i < capacity width := by
  have hpos := capacity_pos width
  have hlt : i % capacity width < capacity width := Int.emod_lt_of_pos i (by omega)
  rw [ofSigned]
  omega

theorem ofSigned_of_nonneg {width : Nat} (hlow : 0 ≤ i) (hhigh : i < capacity width) :
    (ofSigned width i : Int) = i := by
  rw [ofSigned, Int.emod_eq_of_lt hlow hhigh, Int.toNat_of_nonneg hlow]

theorem zigzag_lt {width : Nat} (h : hasWidth (width + 1) i) : zigzag i < capacity (width + 1) := by
  obtain ⟨hlow, hhigh⟩ := hasWidth_iff.1 h
  have hmin : minSigned (width + 1) = -(capacity width : Int) := rfl
  have hmax : maxSigned (width + 1) = capacity width - 1 := rfl
  have hcapacity := capacity_succ width
  have hpos := capacity_pos width
  unfold zigzag
  split <;> omega

theorem intOfCode_intCode (hbounds : bounds? s = some (low, high)) (hlow : low ≤ i)
    (hhigh : i ≤ high) : (shape (.scalar s)).Holds (intCode (.scalar s) i) ∧
      ofCode (.scalar s) (intCode (.scalar s) i) = .int i := by
  have h64 : maxUnsigned 64 < capacity 64 := by decide
  have h32 : maxUnsigned 32 < capacity 32 := by decide
  have hless : capacity 32 < capacity 64 := by decide
  cases s <;> simp only [bounds?, Option.some.injEq, Prod.mk.injEq, reduceCtorEq] at hbounds <;>
    obtain ⟨rfl, rfl⟩ := hbounds
  case int32 =>
    refine ⟨ofSigned_lt 64 i, congrArg Value.int ?_⟩
    exact toSigned_ofSigned (by decide) (by decide) (hasWidth_iff.2 ⟨hlow, hhigh⟩)
  case int64 =>
    refine ⟨ofSigned_lt 64 i, congrArg Value.int ?_⟩
    exact toSigned_ofSigned (by decide) (by decide) (hasWidth_iff.2 ⟨hlow, hhigh⟩)
  case sfixed32 =>
    refine ⟨ofSigned_lt 32 i, congrArg Value.int ?_⟩
    exact toSigned_ofSigned (by decide) (by decide) (hasWidth_iff.2 ⟨hlow, hhigh⟩)
  case sfixed64 =>
    refine ⟨ofSigned_lt 64 i, congrArg Value.int ?_⟩
    exact toSigned_ofSigned (by decide) (by decide) (hasWidth_iff.2 ⟨hlow, hhigh⟩)
  case uint32 =>
    have hcode : (ofSigned 64 i : Int) = i := ofSigned_of_nonneg hlow (by omega)
    refine ⟨ofSigned_lt 64 i, congrArg Value.int ?_⟩
    change ((ofSigned 64 i % capacity 32 : Nat) : Int) = i
    rw [Nat.mod_eq_of_lt (by omega), hcode]
  case uint64 =>
    exact ⟨ofSigned_lt 64 i, congrArg Value.int (ofSigned_of_nonneg hlow (by omega))⟩
  case fixed32 =>
    exact ⟨ofSigned_lt 32 i, congrArg Value.int (ofSigned_of_nonneg hlow (by omega))⟩
  case fixed64 =>
    exact ⟨ofSigned_lt 64 i, congrArg Value.int (ofSigned_of_nonneg hlow (by omega))⟩
  case sint32 =>
    have hlt : zigzag i < capacity 32 := zigzag_lt (hasWidth_iff.2 ⟨hlow, hhigh⟩)
    refine ⟨hlt.trans hless, congrArg Value.int ?_⟩
    change unzigzag (zigzag i % capacity 32) = i
    rw [Nat.mod_eq_of_lt hlt, unzigzag_zigzag]
  case sint64 =>
    exact ⟨zigzag_lt (hasWidth_iff.2 ⟨hlow, hhigh⟩), congrArg Value.int (unzigzag_zigzag i)⟩

theorem FitsPlain.exists_code (h : FitsPlain p t v) (ht : t.isPackable) :
    ∃ n, code? t v = some n ∧ (shape t).Holds n ∧ ofCode t n = v := by
  cases h with
  | int hbounds hlow hhigh =>
    obtain ⟨hholds, hcode⟩ := intOfCode_intCode hbounds hlow hhigh
    exact ⟨_, rfl, hholds, hcode⟩
  | bool b =>
    cases b with
    | false => exact ⟨0, rfl, capacity_pos 64, rfl⟩
    | true =>
      have hlt : 1 < capacity 64 := by decide
      exact ⟨1, rfl, hlt, rfl⟩
  | float x =>
    refine ⟨_, rfl, x.bits.toNat_lt, congrArg (fun bits ↦ Value.float ⟨bits⟩) ?_⟩
    exact UInt32.ofNat_toNat
  | double x =>
    refine ⟨_, rfl, x.bits.toNat_lt, congrArg (fun bits ↦ Value.double ⟨bits⟩) ?_⟩
    exact UInt64.ofNat_toNat
  | string s => cases ht
  | bytes bs => cases ht
  | enum he hi =>
    refine ⟨_, rfl, ofSigned_lt 64 _, congrArg Value.int ?_⟩
    exact toSigned_ofSigned (by decide) (by decide) hi

/-! ### Records of values without parts -/

theorem numberRecord_field (field n : Nat) (s : Shape) :
    (numberRecord field n s).field = field := by
  cases s <;> rfl

theorem numberRecord_isPlain {field n : Nat} (hfield : IsField field) {s : Shape} (h : s.Holds n) :
    (numberRecord field n s).IsPlain := by
  cases s with
  | varint => exact ⟨hfield, h⟩
  | fixed64 => exact ⟨hfield, h⟩
  | bytes => exact h.elim
  | fixed32 => exact ⟨hfield, h⟩

theorem scalar?_numberRecord {field n : Nat} (h : (shape t).Holds n) :
    scalar? t (numberRecord field n (shape t)) = some (ofCode t n) := by
  generalize hs : shape t = s at h
  cases s with
  | varint => exact if_pos hs
  | fixed64 => exact if_pos hs
  | bytes => exact h.elim
  | fixed32 => exact if_pos hs

theorem numberRecord_ne_bytes {field n : Nat} {s : Shape} (h : s.Holds n) (field' : Nat)
    (body : List UInt8) : numberRecord field n s ≠ .bytes field' body := by
  cases s with
  | bytes => exact h.elim
  | varint => exact nofun
  | fixed64 => exact nofun
  | fixed32 => exact nofun

/-- A value without parts is one record, and it is read back from it. A number is no bytes. -/
theorem FitsPlain.exists_record (h : FitsPlain p f.type v) (hfield : IsField f.number)
    (hlength : (writeRecords (recordsOf p f v)).length < capacity 64) :
    ∃ r, recordsOf p f v = [r] ∧ r.field = f.number ∧ r.IsPlain ∧ scalar? f.type r = some v ∧
      (f.type.isPackable → ∀ n body, r ≠ .bytes n body) := by
  have hnumber (ht : f.type.isPackable) {n : Nat} (hcode : code? f.type v = some n)
      (hrecords : recordsOf p f v = [numberRecord f.number n (shape f.type)]) :
      ∃ r, recordsOf p f v = [r] ∧ r.field = f.number ∧ r.IsPlain ∧ scalar? f.type r = some v ∧
        (f.type.isPackable → ∀ n body, r ≠ .bytes n body) := by
    obtain ⟨m, hm, hholds, hv⟩ := h.exists_code ht
    obtain rfl := Option.some.inj (hm.symm.trans hcode)
    exact ⟨_, hrecords, numberRecord_field _ _ _, numberRecord_isPlain hfield hholds,
      (scalar?_numberRecord hholds).trans (congrArg some hv),
      fun _ ↦ numberRecord_ne_bytes hholds⟩
  have hbody (body : List UInt8) (hrecords : recordsOf p f v = [.bytes f.number body]) :
      (Record.bytes f.number body).IsPlain := by
    refine ⟨hfield, ?_⟩
    rw [hrecords, writeRecords, writeRecords, Record.write] at hlength
    simp only [List.length_append] at hlength
    omega
  generalize ht : f.type = t at h hnumber
  cases h with
  | int hbounds hlow hhigh =>
    refine hnumber ?_ rfl (by rw [recordsOf, ht])
    revert hbounds
    cases ‹Scalar› <;> simp [bounds?, FieldType.isPackable]
  | bool b => exact hnumber rfl rfl (by rw [recordsOf, ht])
  | float x => exact hnumber rfl rfl (by rw [recordsOf, ht])
  | double x => exact hnumber rfl rfl (by rw [recordsOf, ht])
  | string s =>
    refine ⟨_, recordsOf.eq_2 p f s, rfl, hbody _ (recordsOf.eq_2 p f s), ?_, fun h ↦ ?_⟩
    · exact congrArg (Option.map Value.string) (Text.Utf8.decode?_encode s)
    · cases h
  | bytes bs =>
    refine ⟨_, recordsOf.eq_3 p f bs, rfl, hbody _ (recordsOf.eq_3 p f bs), rfl, fun h ↦ ?_⟩
    cases h
  | enum he hi => exact hnumber rfl rfl (by rw [recordsOf, ht])

/-! ### Several numbers in one record -/

theorem Shape.payload_ne_nil {n : Nat} {s : Shape} (h : s.Holds n) : s.payload n ≠ [] := by
  cases s with
  | varint => exact writeVarint_ne_nil n
  | fixed64 => exact List.cons_ne_nil _ _
  | bytes => exact h.elim
  | fixed32 => exact List.cons_ne_nil _ _

/-- The number of a layout at the start of the bytes, and how many of them it takes. -/
def Shape.read? (bytes : List UInt8) : Shape → Option (Nat × Nat)
  | .varint => varint? bytes
  | .fixed64 => (fixed? 8 bytes).map (·, 8)
  | .fixed32 => (fixed? 4 bytes).map (·, 4)
  | .bytes => none

theorem Shape.read?_payload_append {n : Nat} {s : Shape} (h : s.Holds n) (rest : List UInt8) :
    s.read? (s.payload n ++ rest) = some (n, (s.payload n).length) := by
  cases s with
  | varint => exact varint?_writeVarint h rest
  | fixed64 =>
    rw [Shape.read?, Shape.payload, fixed?_writeLittleEndian 8 h, length_writeLittleEndian]
    rfl
  | bytes => exact h.elim
  | fixed32 =>
    rw [Shape.read?, Shape.payload, fixed?_writeLittleEndian 4 h, length_writeLittleEndian]
    rfl

theorem unpack?_cons (s : Shape) (b : UInt8) (rest : List UInt8) :
    unpack? s (b :: rest) = (s.read? (b :: rest)).bind fun x ↦
      (unpack? s (rest.drop (x.2 - 1))).map (x.1 :: ·) := by
  have hmap (x : Nat × Nat) : (unpack? s (rest.drop (x.2 - 1))).map (x.1 :: ·) =
      (unpack? s (rest.drop (x.2 - 1))).bind fun ns ↦ some (x.1 :: ns) :=
    Option.map_eq_bind
  rw [unpack?.eq_def, funext hmap]
  cases s <;> rfl

theorem unpack?_payload_append {n : Nat} {s : Shape} (h : s.Holds n) (rest : List UInt8) :
    unpack? s (s.payload n ++ rest) = (unpack? s rest).map (n :: ·) := by
  obtain ⟨b, bs, hpayload⟩ := List.exists_cons_of_ne_nil (Shape.payload_ne_nil h)
  have hread := Shape.read?_payload_append h rest
  rw [hpayload, List.cons_append] at hread ⊢
  rw [unpack?_cons, hread, Option.bind_some]
  dsimp only
  rw [List.length_cons, Nat.add_sub_cancel, List.drop_left]

theorem unpack?_packedPayload (ht : t.isPackable) {items : List Value}
    (h : ∀ v ∈ items, FitsPlain p t v) :
    (unpack? (shape t) (packedPayload t items)).map (List.map (ofCode t)) = some items := by
  induction items with
  | nil =>
    rw [packedPayload, List.flatMap_nil, unpack?]
    rfl
  | cons v rest ih =>
    obtain ⟨hv, hrest⟩ := List.forall_mem_cons.1 h
    obtain ⟨n, hcode, hholds, hn⟩ := hv.exists_code ht
    have hpayload : packedPayload t (v :: rest) = (shape t).payload n ++ packedPayload t rest := by
      rw [packedPayload, List.flatMap_cons, hcode]
      rfl
    obtain ⟨ns, hns, heq⟩ := Option.map_eq_some_iff.1 (ih hrest)
    rw [hpayload, unpack?_payload_append hholds, hns, Option.map_some, Option.map_some,
      List.map_cons, hn, heq]

end CallCheck.Message

import CallCheck.Wire.Record
import Mathlib.Data.Option.Basic

/-!
# Reading records that were written

What is written of a number or of a record is read back, and the reader knows where it ends. So
records that stand one after the other are read back one by one.

Numbers of variable length are read back below `2 ^ 64` only, which is what ten bytes hold: nine of
seven bits and a last one of a single bit.

## Main statement

`Wire.records?_writeRecords`: records without groups are read back if their numbers can be written.
-/

namespace CallCheck.Wire

open Numeric

/-! ## Numbers -/

theorem toNat_ofNat_of_lt {n : Nat} (h : n < 0x100) : (UInt8.ofNat n).toNat = n := by
  rw [UInt8.toNat_ofNat']
  exact Nat.mod_eq_of_lt h

theorem writeVarint_ne_nil (n : Nat) : writeVarint n ≠ [] := by
  rw [writeVarint]
  split <;> exact List.cons_ne_nil _ _

/-- An integer is read back if its last byte is among those that may follow. -/
theorem varintFrom?_writeVarint {more n : Nat} (hn : n < 2 * Nat.pow 0x80 more)
    (rest : List UInt8) :
    varintFrom? more (writeVarint n ++ rest) = some (n, (writeVarint n).length) := by
  induction more generalizing n with
  | zero =>
    have hone : Nat.pow 0x80 0 = 1 := rfl
    rw [hone] at hn
    rw [writeVarint, if_pos (by omega), List.singleton_append, varintFrom?,
      toNat_ofNat_of_lt (by omega), if_pos (by omega)]
    rfl
  | succ more ih =>
    rw [writeVarint]
    by_cases hlast : n < 0x80
    · rw [if_pos hlast, List.singleton_append, varintFrom?]
      dsimp only
      rw [toNat_ofNat_of_lt (by omega), if_pos hlast]
      rfl
    · have hhigh : n / 0x80 < 2 * Nat.pow 0x80 more := by
        rw [Nat.div_lt_iff_lt_mul (by decide)]
        have hpow : Nat.pow 0x80 (more + 1) = Nat.pow 0x80 more * 0x80 := rfl
        rw [hpow] at hn
        omega
      rw [if_neg hlast, List.cons_append, varintFrom?]
      dsimp only
      rw [toNat_ofNat_of_lt (by omega), if_neg (by omega), ih hhigh, Option.map_some,
        List.length_cons]
      -- The low seven bits and the high ones make up the number.
      have hsum : n % 0x80 + 0x80 - 0x80 + 0x80 * (n / 0x80) = n := by omega
      rw [hsum]

theorem varint?_writeVarint {n : Nat} (hn : n < capacity 64) (rest : List UInt8) :
    varint? (writeVarint n ++ rest) = some (n, (writeVarint n).length) :=
  varintFrom?_writeVarint hn rest

theorem length_writeLittleEndian (width n : Nat) : (writeLittleEndian width n).length = width := by
  induction width generalizing n with
  | zero => rfl
  | succ width ih => rw [writeLittleEndian, List.length_cons, ih]

theorem littleEndian_writeLittleEndian {width n : Nat} (hn : n < Nat.pow 0x100 width) :
    littleEndian (writeLittleEndian width n) = n := by
  induction width generalizing n with
  | zero =>
    obtain rfl : n = 0 := by simpa using hn
    rfl
  | succ width ih =>
    have hhigh : n / 0x100 < Nat.pow 0x100 width := by
      rw [Nat.div_lt_iff_lt_mul (by decide)]
      exact hn
    have hcons : littleEndian (writeLittleEndian (width + 1) n) =
        (UInt8.ofNat (n % 0x100)).toNat +
          0x100 * littleEndian (writeLittleEndian width (n / 0x100)) := rfl
    rw [hcons, toNat_ofNat_of_lt (Nat.mod_lt _ (by decide)), ih hhigh]
    omega

theorem fixed?_writeLittleEndian (width : Nat) {n : Nat} (hn : n < Nat.pow 0x100 width)
    (rest : List UInt8) :
    fixed? width (writeLittleEndian width n ++ rest) = some n := by
  have htake : (writeLittleEndian width n ++ rest).take width = writeLittleEndian width n := by
    rw [List.take_append_of_le_length (Nat.le_of_eq (length_writeLittleEndian width n).symm)]
    exact List.take_of_length_le (Nat.le_of_eq (length_writeLittleEndian width n))
  have hlength : width ≤ (writeLittleEndian width n ++ rest).length := by
    rw [List.length_append, length_writeLittleEndian]
    exact Nat.le_add_right _ _
  rw [fixed?, if_pos hlength, htake, littleEndian_writeLittleEndian hn]

/-! ## Records -/

/-- A number that a field can have. -/
def IsField (field : Nat) : Prop := 0 < field ∧ field < capacity 29

/-- A record without groups whose numbers can be written. -/
def Record.IsPlain : Record → Prop
  | .varint field n => IsField field ∧ n < capacity 64
  | .fixed64 field n => IsField field ∧ n < capacity 64
  | .bytes field body => IsField field ∧ body.length < capacity 64
  | .group .. => False
  | .fixed32 field n => IsField field ∧ n < capacity 32

theorem Record.write_ne_nil (r : Record) : r.write ≠ [] := by
  cases r <;> simp [Record.write, writeKey, writeVarint_ne_nil]

theorem IsField.key_lt {field shape : Nat} (h : IsField field) (hshape : shape < 8) :
    field * 8 + shape < capacity 32 := by
  have hfield : field < 2 ^ 29 := h.2
  change field * 8 + shape < 2 ^ 32
  omega

theorem item?_writeKey {field : Nat} (h : IsField field) (shape : Nat) (hshape : shape < 8)
    (rest : List UInt8) :
    item? (writeKey field shape ++ rest) =
      match (field * 8 + shape) % 8 with
      | 0 => do
        let (n, more) ← varint? rest
        return (.record (.varint field n), (writeKey field shape).length + more)
      | 1 => return (.record (.fixed64 field (← fixed? 8 rest)), (writeKey field shape).length + 8)
      | 2 => do
        let (length, more) ← varint? rest
        let body := rest.drop more
        if length ≤ body.length then
          return (.record (.bytes field (body.take length)),
            (writeKey field shape).length + more + length)
        else none
      | 3 => return (.openGroup field, (writeKey field shape).length)
      | 4 => return (.closeGroup field, (writeKey field shape).length)
      | 5 => return (.record (.fixed32 field (← fixed? 4 rest)), (writeKey field shape).length + 4)
      | _ => none := by
  have hkey := h.key_lt hshape
  have hlt : field * 8 + shape < capacity 64 := by
    have hcapacity : capacity 32 < capacity 64 := by decide
    exact Nat.lt_trans hkey hcapacity
  have hfield : (field * 8 + shape) / 8 = field := by omega
  have hnot : ¬(capacity 32 ≤ field * 8 + shape ∨ field = 0) := by
    rintro (hle | rfl)
    · exact Nat.not_le.2 hkey hle
    · exact Nat.lt_irrefl 0 h.1
  have hread : varint? (writeKey field shape ++ rest) =
      some (field * 8 + shape, (writeKey field shape).length) := varint?_writeVarint hlt rest
  rw [item?, hread, Option.bind_eq_bind, Option.bind_some]
  dsimp only
  rw [hfield, List.drop_left]
  exact if_neg hnot

/-- A record is the item that is read first, and the reader knows where it ends. -/
theorem item?_write {r : Record} (h : r.IsPlain) (rest : List UInt8) :
    item? (r.write ++ rest) = some (.record r, r.write.length) := by
  cases r with
  | varint field n =>
    have hread := item?_writeKey h.1 0 (by decide) (writeVarint n ++ rest)
    have hmod : (field * 8 + 0) % 8 = 0 := by omega
    rw [hmod] at hread
    rw [Record.write, List.append_assoc, hread, List.length_append]
    simp only [varint?_writeVarint h.2]
    rfl
  | fixed64 field n =>
    have hread := item?_writeKey h.1 1 (by decide) (writeLittleEndian 8 n ++ rest)
    have hmod : (field * 8 + 1) % 8 = 1 := by omega
    rw [hmod] at hread
    rw [Record.write, List.append_assoc, hread, List.length_append, length_writeLittleEndian]
    simp only [fixed?_writeLittleEndian 8 h.2]
    rfl
  | bytes field body =>
    have hread := item?_writeKey h.1 2 (by decide)
      (writeVarint body.length ++ (body ++ rest))
    have hmod : (field * 8 + 2) % 8 = 2 := by omega
    have hlength : body.length ≤ (body ++ rest).length := by
      rw [List.length_append]
      exact Nat.le_add_right _ _
    rw [hmod] at hread
    rw [Record.write, List.append_assoc, List.append_assoc, hread, List.length_append,
      List.length_append]
    simp only [varint?_writeVarint h.2, Option.bind_eq_bind, Option.bind_some, List.drop_left,
      if_pos hlength, List.take_left]
    rfl
  | group field records => exact h.elim
  | fixed32 field n =>
    have hread := item?_writeKey h.1 5 (by decide) (writeLittleEndian 4 n ++ rest)
    have hmod : (field * 8 + 5) % 8 = 5 := by omega
    rw [hmod] at hread
    rw [Record.write, List.append_assoc, hread, List.length_append, length_writeLittleEndian]
    simp only [fixed?_writeLittleEndian 4 h.2]
    rfl

theorem items?_of_item? {bytes rest : List UInt8} {i : Item} (hne : bytes ≠ [])
    (h : item? (bytes ++ rest) = some (i, bytes.length)) :
    items? (bytes ++ rest) = (items? rest).map (i :: ·) := by
  obtain ⟨b, bs, rfl⟩ := List.exists_cons_of_ne_nil hne
  rw [List.cons_append] at h ⊢
  rw [items?, h, Option.bind_eq_bind, Option.bind_some]
  dsimp only
  rw [List.length_cons, Nat.add_sub_cancel, List.drop_left]
  cases items? rest <;> rfl

theorem items?_writeRecords {records : List Record} (h : ∀ r ∈ records, r.IsPlain) :
    items? (writeRecords records) = some (records.map .record) := by
  induction records with
  | nil =>
    rw [writeRecords, items?]
    rfl
  | cons r rest ih =>
    obtain ⟨hr, hrest⟩ := List.forall_mem_cons.1 h
    rw [writeRecords, items?_of_item? r.write_ne_nil (item?_write hr _), ih hrest]
    rfl

theorem assemble?_records (depth : Nat) (done records : List Record) :
    assemble? depth [] done (records.map .record) = some (done.reverse ++ records) := by
  induction records generalizing done with
  | nil =>
    rw [List.map_nil, assemble?, List.append_nil]
  | cons r rest ih =>
    rw [List.map_cons, assemble?, ih, List.reverse_cons, List.append_assoc]
    rfl

/-- **Records that were written are read back.** -/
theorem records?_writeRecords {records : List Record} (h : ∀ r ∈ records, r.IsPlain)
    (depth : Nat) : records? depth (writeRecords records) = some records := by
  rw [records?, items?_writeRecords h, Option.bind_some, assemble?_records]
  rfl

end CallCheck.Wire

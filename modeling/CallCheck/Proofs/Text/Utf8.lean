import CallCheck.Text.Utf8
import Mathlib.Tactic.SplitIfs

/-!
# Reading back what is written

The bytes of a text are UTF-8, and they are read as that text.
-/

namespace CallCheck.Text.Utf8

/-! ## First bytes -/

theorem first_one : ∀ n < 0x80, first (UInt8.ofNat n) = .done (Char.ofNat n) := by decide

theorem first_two :
    ∀ n < 32, 2 ≤ n → first (UInt8.ofNat (n + 192)) = .more { bits := n, owed := 0 } := by decide

theorem first_three :
    ∀ n < 16, first (UInt8.ofNat (n + 224)) =
      .more { bits := n, owed := 1, low := if n = 0 then 0xa0 else 0x80,
              high := if n = 13 then 0x9f else 0xbf } := by decide

theorem first_four :
    ∀ n < 5, first (UInt8.ofNat (n + 240)) =
      .more { bits := n, owed := 2, low := if n = 0 then 0x90 else 0x80,
              high := if n = 4 then 0x8f else 0xbf } := by decide

/-! ## The bytes of a character -/

theorem Pending.next_ofNat {p : Pending} {n : Nat} (hn : n < 64) (hlow : p.low ≤ n + 128)
    (hhigh : n + 128 ≤ p.high) :
    p.next (UInt8.ofNat (n + 128)) =
      match p.owed with
      | 0 => .done (Char.ofNat (p.bits * 64 + n))
      | owed + 1 => .more { bits := p.bits * 64 + n, owed } := by
  have hbyte : (UInt8.ofNat (n + 128)).toNat = n + 128 :=
    UInt8.toNat_ofNat_of_lt' (by omega : n + 128 < 256)
  have hbits : (n + 128) % 64 = n := by omega
  obtain ⟨bits, owed, low, high⟩ := p
  cases owed <;> simp only [Pending.next, hbyte, hbits, hlow, hhigh, and_self, if_true]

theorem decodeFrom?_utf8EncodeChar (c : Char) (rest : List UInt8) :
    decodeFrom? none (String.utf8EncodeChar c ++ rest) = (decodeFrom? none rest).map (c :: ·) := by
  have hvalid : c.toNat < 0xd800 ∨ 0xdfff < c.toNat ∧ c.toNat < 0x110000 := c.valid
  have hc : Char.ofNat c.toNat = c := Char.ofNat_toNat c
  have hencode : String.utf8EncodeChar c =
      if c.toNat ≤ 127 then [UInt8.ofNat c.toNat]
      else if c.toNat ≤ 2047 then
        [UInt8.ofNat (c.toNat / 64 % 32 + 192), UInt8.ofNat (c.toNat % 64 + 128)]
      else if c.toNat ≤ 65535 then
        [UInt8.ofNat (c.toNat / 4096 % 16 + 224), UInt8.ofNat (c.toNat / 64 % 64 + 128),
          UInt8.ofNat (c.toNat % 64 + 128)]
      else
        [UInt8.ofNat (c.toNat / 262144 % 8 + 240), UInt8.ofNat (c.toNat / 4096 % 64 + 128),
          UInt8.ofNat (c.toNat / 64 % 64 + 128), UInt8.ofNat (c.toNat % 64 + 128)] := rfl
  rw [hencode]
  generalize c.toNat = v at hvalid hc
  subst hc
  -- the bits of each byte are a digit of the code point, and the leading one is within its range
  split_ifs with h1 h2 h3
  · simp only [List.singleton_append, decodeFrom?, Option.elim, first_one v (by omega)]
  · have hfirst := first_two (v / 64 % 32) (by omega) (by omega)
    have hbits : v / 64 % 32 * 64 + v % 64 = v := by omega
    simp only [List.cons_append, List.nil_append, decodeFrom?, Option.elim, hfirst]
    rw [Pending.next_ofNat (by omega) (by dsimp only; omega) (by dsimp only; omega)]
    simp only [hbits]
  · have hfirst := first_three (v / 4096 % 16) (by omega)
    have hbits : (v / 4096 % 16 * 64 + v / 64 % 64) * 64 + v % 64 = v := by omega
    simp only [List.cons_append, List.nil_append, decodeFrom?, Option.elim, hfirst]
    rw [Pending.next_ofNat (by omega) (by dsimp only; split_ifs <;> omega)
      (by dsimp only; split_ifs <;> omega)]
    simp only
    rw [Pending.next_ofNat (by omega) (by dsimp only; omega) (by dsimp only; omega)]
    simp only [hbits]
  · have hfirst := first_four (v / 262144 % 8) (by omega)
    have hbits :
        ((v / 262144 % 8 * 64 + v / 4096 % 64) * 64 + v / 64 % 64) * 64 + v % 64 = v := by omega
    simp only [List.cons_append, List.nil_append, decodeFrom?, Option.elim, hfirst]
    rw [Pending.next_ofNat (by omega) (by dsimp only; split_ifs <;> omega)
      (by dsimp only; split_ifs <;> omega)]
    simp only
    rw [Pending.next_ofNat (by omega) (by dsimp only; omega) (by dsimp only; omega)]
    simp only
    rw [Pending.next_ofNat (by omega) (by dsimp only; omega) (by dsimp only; omega)]
    simp only [hbits]

/-- **What is encoded is decoded.** -/
theorem decode?_encode (s : String) : decode? (encode s) = some s := by
  have hall (cs : List Char) : decodeFrom? none (cs.flatMap String.utf8EncodeChar) = some cs := by
    induction cs with
    | nil => rfl
    | cons c cs ih => rw [List.flatMap_cons, decodeFrom?_utf8EncodeChar, ih, Option.map_some]
  rw [decode?, encode, hall, Option.map_some, String.ofList_toList]

end CallCheck.Text.Utf8

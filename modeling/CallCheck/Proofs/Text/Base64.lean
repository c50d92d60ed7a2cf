import CallCheck.Text.Base64
import Mathlib.Data.List.Basic

/-!
# Reading base64 that was written

Bytes are cut into values of six bits (`Base64.sextets`), each of which is one character, and the
padding is what the last group lacks (`Base64.padding`). So the characters up to the padding give
the values back, and the values give the bytes.
-/

namespace CallCheck.Text.Base64

/-- The values of six bits of bytes in groups of three; the last is filled up with zeros. -/
def sextets : List UInt8 → List Nat
  | x :: y :: z :: rest =>
    let n := x.toNat * 0x10000 + y.toNat * 0x100 + z.toNat
    n / 0x40000 :: n / 0x1000 % 0x40 :: n / 0x40 % 0x40 :: n % 0x40 :: sextets rest
  | [x, y] =>
    let n := x.toNat * 0x100 + y.toNat
    [n / 0x400, n / 0x10 % 0x40, n * 4 % 0x40]
  | [x] => [x.toNat / 4, x.toNat * 0x10 % 0x40]
  | [] => []

/-- The characters that the last group of bytes lacks. -/
def padding : List UInt8 → List Char
  | _ :: _ :: _ :: rest => padding rest
  | [_, _] => ['=']
  | [_] => ['=', '=']
  | [] => []

theorem encodeBytes_eq (a : Alphabet) (bytes : List UInt8) :
    encodeBytes a bytes = (sextets bytes).map a.digit ++ padding bytes := by
  fun_induction sextets bytes with
  | case1 x y z rest n ih =>
    simp only [encodeBytes, padding, ih, List.map_cons, List.cons_append, n]
  | case2 x y n => rfl
  | case3 x => rfl
  | case4 => rfl

theorem sextets_lt (bytes : List UInt8) : ∀ n ∈ sextets bytes, n < 0x40 := by
  fun_induction sextets bytes with
  | case1 x y z rest n ih =>
    have hx := x.toNat_lt
    have hy := y.toNat_lt
    have hz := z.toNat_lt
    simp only [List.forall_mem_cons]
    exact ⟨by omega, by omega, by omega, by omega, ih⟩
  | case2 x y n =>
    have hx := x.toNat_lt
    have hy := y.toNat_lt
    simp only [List.forall_mem_cons]
    exact ⟨by omega, by omega, by omega, List.forall_mem_nil _⟩
  | case3 x =>
    have hx := x.toNat_lt
    simp only [List.forall_mem_cons]
    exact ⟨by omega, by omega, List.forall_mem_nil _⟩
  | case4 => exact List.forall_mem_nil _

theorem padding_eq (bytes : List UInt8) : padding bytes = [] ∨
    padding bytes = ['='] ∧ (sextets bytes).length % 4 = 3 ∨
    padding bytes = ['=', '='] ∧ (sextets bytes).length % 4 = 2 := by
  fun_induction sextets bytes with
  | case1 x y z rest n ih =>
    simp only [padding, List.length_cons]
    have hlength (k : Nat) : (k + 1 + 1 + 1 + 1) % 4 = k % 4 := by omega
    rw [hlength]
    exact ih
  | case2 x y n => exact .inr (.inl ⟨rfl, rfl⟩)
  | case3 x => exact .inr (.inr ⟨rfl, rfl⟩)
  | case4 => exact .inl rfl

theorem join?_sextets (bytes : List UInt8) : join? (sextets bytes) = some bytes := by
  fun_induction sextets bytes with
  | case1 x y z rest n ih =>
    have hy := y.toNat_lt
    have hz := z.toNat_lt
    have hn : n / 0x40000 * 0x40000 + n / 0x1000 % 0x40 * 0x1000 + n / 0x40 % 0x40 * 0x40 +
        n % 0x40 = n := by omega
    have hfirst : n / 0x10000 = x.toNat := by omega
    have hsecond : n / 0x100 % 0x100 = y.toNat := by omega
    have hthird : n % 0x100 = z.toNat := by omega
    rw [join?, hn, ih, hfirst, hsecond, hthird, UInt8.ofNat_toNat, UInt8.ofNat_toNat,
      UInt8.ofNat_toNat]
    rfl
  | case2 x y n =>
    have hy := y.toNat_lt
    have hdef : n = x.toNat * 0x100 + y.toNat := rfl
    clear_value n
    have hn : (n / 0x400 * 0x1000 + n / 0x10 % 0x40 * 0x40 + n * 4 % 0x40) / 4 = n := by omega
    have hfirst : n / 0x100 = x.toNat := by omega
    have hsecond : n % 0x100 = y.toNat := by omega
    rw [join?, hn, hfirst, hsecond, UInt8.ofNat_toNat, UInt8.ofNat_toNat]
  | case3 x =>
    have hx := x.toNat_lt
    have hn : (x.toNat / 4 * 0x40 + x.toNat * 0x10 % 0x40) / 0x10 = x.toNat := by omega
    rw [join?, hn, UInt8.ofNat_toNat]
  | case4 => rfl

theorem digit_of_lt : ∀ n < 0x40,
    standard.value? (standard.digit n) = some n ∧ standard.digit n ≠ '=' := by
  decide +kernel

theorem mapM_value?_digit {values : List Nat} (h : ∀ n ∈ values, n < 0x40) :
    (values.map standard.digit).mapM standard.value? = some values := by
  induction values with
  | nil => rfl
  | cons n rest ih =>
    obtain ⟨hn, hrest⟩ := List.forall_mem_cons.1 h
    rw [List.map_cons, List.mapM_cons, (digit_of_lt n hn).1, ih hrest]
    rfl

/-- **Bytes are read back from their text.** -/
theorem decode?_encode (bytes : List UInt8) : decode? (encode bytes) = some bytes := by
  have hdigits : ∀ c ∈ (sextets bytes).map standard.digit, (c != '=') = true := by
    intro c hc
    obtain ⟨n, hn, rfl⟩ := List.mem_map.1 hc
    exact bne_iff_ne.2 (digit_of_lt n (sextets_lt bytes n hn)).2
  have htake : (encodeBytes standard bytes).takeWhile (· != '=') =
      (sextets bytes).map standard.digit := by
    rw [encodeBytes_eq, List.takeWhile_append_of_pos hdigits]
    rcases padding_eq bytes with h | ⟨h, -⟩ | ⟨h, -⟩ <;>
      exact h ▸ List.append_nil _
  have hdrop : (encodeBytes standard bytes).dropWhile (· != '=') = padding bytes := by
    rw [encodeBytes_eq, List.dropWhile_append_of_pos hdigits]
    rcases padding_eq bytes with h | ⟨h, -⟩ | ⟨h, -⟩ <;> rw [h] <;> rfl
  have hpadding : (padding bytes).isEmpty = true ∨
      ((padding bytes).all (· == '=') = true ∧
        2 ≤ ((sextets bytes).map standard.digit).length % 4 ∧
        ((sextets bytes).map standard.digit).length % 4 + (padding bytes).length ≤ 4) := by
    rw [List.length_map]
    rcases padding_eq bytes with h | ⟨h, hlength⟩ | ⟨h, hlength⟩
    · exact .inl (h ▸ rfl)
    · exact .inr (by rw [h, hlength]; decide)
    · exact .inr (by rw [h, hlength]; decide)
  rw [decode?, encode, String.toList_ofList, decodeChars?, htake, hdrop, if_pos hpadding,
    mapM_value?_digit (sextets_lt bytes), Option.bind_some, join?_sextets]
  rfl

end CallCheck.Text.Base64

/-!
# Base64

Bytes in groups of three as four characters that stand for six bits each. Writing uses the standard
alphabet and pads the last group. Reading takes the standard alphabet or the one that is safe in
addresses, and padding may be missing.
-/

namespace CallCheck.Text.Base64

/-- The two characters in which alphabets differ, for 62 and 63. -/
structure Alphabet where
  /-- The character for 62. -/
  plus : Char
  /-- The character for 63. -/
  slash : Char
  deriving DecidableEq, Repr

/-- The standard alphabet. -/
def standard : Alphabet := ⟨'+', '/'⟩

/-- The alphabet that is safe in addresses and file names. -/
def urlSafe : Alphabet := ⟨'-', '_'⟩

/-- The character for six bits. -/
def Alphabet.digit (a : Alphabet) (n : Nat) : Char :=
  if n < 26 then Char.ofNat ('A'.toNat + n)
  else if n < 52 then Char.ofNat ('a'.toNat + (n - 26))
  else if n < 62 then Char.ofNat ('0'.toNat + (n - 52))
  else if n = 62 then a.plus
  else a.slash

/-- The six bits of a character. -/
def Alphabet.value? (a : Alphabet) (c : Char) : Option Nat :=
  if 'A' ≤ c ∧ c ≤ 'Z' then some (c.toNat - 'A'.toNat)
  else if 'a' ≤ c ∧ c ≤ 'z' then some (c.toNat - 'a'.toNat + 26)
  else if '0' ≤ c ∧ c ≤ '9' then some (c.toNat - '0'.toNat + 52)
  else if c = a.plus then some 62
  else if c = a.slash then some 63
  else none

/-- The characters of bytes, the last group padded. -/
def encodeBytes (a : Alphabet) : List UInt8 → List Char
  | x :: y :: z :: rest =>
    let n := x.toNat * 0x10000 + y.toNat * 0x100 + z.toNat
    a.digit (n / 0x40000) :: a.digit (n / 0x1000 % 0x40) :: a.digit (n / 0x40 % 0x40) ::
      a.digit (n % 0x40) :: encodeBytes a rest
  | [x, y] =>
    let n := x.toNat * 0x100 + y.toNat
    [a.digit (n / 0x400), a.digit (n / 0x10 % 0x40), a.digit (n * 4 % 0x40), '=']
  | [x] => [a.digit (x.toNat / 4), a.digit (x.toNat * 0x10 % 0x40), '=', '=']
  | [] => []

/-- Bytes as text. -/
def encode (bytes : List UInt8) : String := String.ofList (encodeBytes standard bytes)

/-- The bytes of six-bit values in groups of four; bits that fill no byte are left out. -/
def join? : List Nat → Option (List UInt8)
  | a :: b :: c :: d :: rest => do
    let n := a * 0x40000 + b * 0x1000 + c * 0x40 + d
    return UInt8.ofNat (n / 0x10000) :: UInt8.ofNat (n / 0x100 % 0x100) ::
      UInt8.ofNat (n % 0x100) :: (← join? rest)
  | [a, b, c] =>
    let n := (a * 0x1000 + b * 0x40 + c) / 4
    some [UInt8.ofNat (n / 0x100), UInt8.ofNat (n % 0x100)]
  | [a, b] => some [UInt8.ofNat ((a * 0x40 + b) / 0x10)]
  | [_] => none
  | [] => some []

/-- The bytes that characters of an alphabet write. Padding may fill the last group, in whole or in
part. -/
def decodeChars? (a : Alphabet) (cs : List Char) : Option (List UInt8) :=
  let body := cs.takeWhile (· != '=')
  let padding := cs.dropWhile (· != '=')
  if padding.isEmpty ∨
      (padding.all (· == '=') ∧ 2 ≤ body.length % 4 ∧ body.length % 4 + padding.length ≤ 4) then
    (body.mapM a.value?).bind join?
  else none

/-- The bytes that a text writes, in one of the two alphabets. -/
def decode? (s : String) : Option (List UInt8) :=
  (decodeChars? standard s.toList).or (decodeChars? urlSafe s.toList)

end CallCheck.Text.Base64

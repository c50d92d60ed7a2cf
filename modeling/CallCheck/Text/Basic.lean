/-!
# Texts

Comparing texts without regard to the case of ASCII letters, and looking for one text inside
another. The characters of the Unicode property `White_Space` separate words and are trimmed from
the ends of names, keys and values.
-/

namespace CallCheck.Text

/-- The text with its ASCII letters in lower case. -/
def asciiLower (s : String) : String := String.ofList (s.toList.map Char.toLower)

/-- Whether two texts differ at most in the case of ASCII letters. -/
def eqIgnoringCase (s t : String) : Bool := asciiLower s == asciiLower t

/-- Whether one list of characters stands somewhere in another. -/
def isInfix (needle : List Char) : List Char → Bool
  | [] => needle.isEmpty
  | c :: rest => needle.isPrefixOf (c :: rest) || isInfix needle rest

/-- Whether a text contains another. -/
def contains (haystack needle : String) : Bool := isInfix needle.toList haystack.toList

/-- A character with the Unicode property `White_Space`. -/
def isBlank (c : Char) : Bool :=
  let n := c.toNat
  (9 ≤ n && n ≤ 13) || n == 0x20 || n == 0x85 || n == 0xa0 || n == 0x1680 ||
    (0x2000 ≤ n && n ≤ 0x200a) || n == 0x2028 || n == 0x2029 || n == 0x202f || n == 0x205f ||
    n == 0x3000

/-- The characters without the blanks at the two ends. -/
def trimChars (cs : List Char) : List Char :=
  ((cs.dropWhile isBlank).reverse.dropWhile isBlank).reverse

end CallCheck.Text

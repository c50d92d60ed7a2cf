import CallCheck.Text.Unprintable

/-!
# Quoted characters and texts

How a message shows a character or a text so that every part of it can be told apart: between
quotes, with the usual short escapes for tab, line ends, NUL, backslash and the quote itself, and
a code point in braces for whatever has no glyph of its own.
-/

namespace CallCheck.Text

/-- The hexadecimal digits of a number, lowercase, without leading zeros. -/
def hexDigits (n : Nat) : String := String.ofList (Nat.toDigits 16 n)

/-- A character as it stands between two of the quotes `quote`. -/
def escapeChar (quote c : Char) : String :=
  if c = '\x00' then "\\0"
  else if c = '\t' then "\\t"
  else if c = '\r' then "\\r"
  else if c = '\n' then "\\n"
  else if c = '\\' || c = quote then String.ofList ['\\', c]
  else if isUnprintable c then "\\u\x7b" ++ hexDigits c.toNat ++ "\x7d"
  else String.singleton c

/-- A character in single quotes. -/
def quotedChar (c : Char) : String := "'" ++ escapeChar '\'' c ++ "'"

/-- A text in double quotes. -/
def quoted (s : String) : String :=
  "\"" ++ String.join (s.toList.map (escapeChar '"')) ++ "\""

end CallCheck.Text

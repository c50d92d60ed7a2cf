import CallCheck.Json.Basic
import CallCheck.Numeric.Layout
import CallCheck.Text.Uuid

/-!
# JSON text

Documents written as text, compact or indented. Only the quote, the backslash and the control
characters below the space are escaped; every other character stands for itself.
-/

namespace CallCheck.Json

open Numeric

/-- A character as it stands inside a quoted string. -/
def escape (c : Char) : List Char :=
  if c = '"' then ['\\', '"']
  else if c = '\\' then ['\\', '\\']
  else if c = '\n' then ['\\', 'n']
  else if c = '\r' then ['\\', 'r']
  else if c = '\t' then ['\\', 't']
  else if c = '\x08' then ['\\', 'b']
  else if c = '\x0c' then ['\\', 'f']
  else if c.toNat < 0x20 then
    ['\\', 'u', '0', '0', Text.Hex.digit (c.toNat / 16), Text.Hex.digit (c.toNat % 16)]
  else [c]

/-- A quoted string. -/
def writeString (s : String) : List Char := '"' :: (s.toList.flatMap escape ++ ['"'])

/-- A number. -/
def writeNumber : Number → List Char
  | .int i => (toString i).toList
  | .real x => x.jsonText.toList

mutual

/-- A document as compact text, without any blanks between its parts. -/
def write : Json → List Char
  | .null => ['n', 'u', 'l', 'l']
  | .bool true => ['t', 'r', 'u', 'e']
  | .bool false => ['f', 'a', 'l', 's', 'e']
  | .number n => writeNumber n
  | .string s => writeString s
  | .array items => '[' :: (writeItems items ++ [']'])
  | .object members => '\x7b' :: (writeMembers members ++ ['\x7d'])

/-- Items with commas between them. -/
def writeItems : List Json → List Char
  | [] => []
  | [j] => j.write
  | j :: rest => j.write ++ ',' :: writeItems rest

/-- Members with commas between them. -/
def writeMembers : List (String × Json) → List Char
  | [] => []
  | [(k, v)] => writeString k ++ ':' :: v.write
  | (k, v) :: rest => writeString k ++ ':' :: (v.write ++ ',' :: writeMembers rest)

end

/-- A document as compact text. -/
def text (j : Json) : String := String.ofList j.write

/-- A new line, indented by two blanks for each level. -/
def newLine (level : Nat) : List Char := '\n' :: List.replicate (2 * level) ' '

mutual

/-- A document with every item and member on a line of its own. -/
def writeIndented (level : Nat) : Json → List Char
  | .array (j :: rest) =>
    '[' :: (writeIndentedItems (level + 1) (j :: rest) ++ newLine level ++ [']'])
  | .object (m :: rest) =>
    '\x7b' :: (writeIndentedMembers (level + 1) (m :: rest) ++ newLine level ++ ['\x7d'])
  | j => j.write

/-- Items on lines of their own, with commas between them. -/
def writeIndentedItems (level : Nat) : List Json → List Char
  | [] => []
  | [j] => newLine level ++ writeIndented level j
  | j :: rest => newLine level ++ writeIndented level j ++ ',' :: writeIndentedItems level rest

/-- Members on lines of their own, with commas between them. -/
def writeIndentedMembers (level : Nat) : List (String × Json) → List Char
  | [] => []
  | [(k, v)] => newLine level ++ writeString k ++ ':' :: ' ' :: writeIndented level v
  | (k, v) :: rest =>
    newLine level ++ writeString k ++ ':' :: ' ' :: writeIndented level v ++
      ',' :: writeIndentedMembers level rest

end

/-- A document as text with every item and member on a line of its own. -/
def indentedText (j : Json) : String := String.ofList (writeIndented 0 j)

end CallCheck.Json

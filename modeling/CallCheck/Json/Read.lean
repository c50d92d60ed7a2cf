import CallCheck.Json.Literal
import CallCheck.Text.Utf8
import CallCheck.Text.Uuid

/-!
# Reading JSON

Text is cut into tokens (`tokens?`), and tokens are put together to a document (`ofTokens?`) by
a machine that keeps the open arrays and objects on a stack. A document nests at most 127 arrays
and objects in each other. `read?` gives the document as it is written, `parse?` its canonical
form.
-/

namespace CallCheck.Json

open Numeric

/-! ## Tokens -/

/-- A token of JSON text. -/
inductive Token
  /-- A document without parts. -/
  | scalar (j : Json)
  | openArray
  | closeArray
  | openObject
  | closeObject
  | comma
  | colon
  deriving Repr, Inhabited

/-- A blank of JSON text. -/
def isSpace (c : Char) : Bool := c == ' ' || c == '\n' || c == '\t' || c == '\r'

/-- A character that number literals are made of. -/
def isNumberChar (c : Char) : Bool :=
  isDigit c || c == '-' || c == '+' || c == '.' || c == 'e' || c == 'E'

/-- The number that two hexadecimal digits write. -/
def pair? (a b : Char) : Option Nat := do
  let high ← Text.Hex.value? a
  return high * 16 + (← Text.Hex.value? b)

/-- The code unit that four hexadecimal digits at the start write. -/
def unit? : List Char → Option Nat
  | a :: b :: c :: d :: _ => do
    let high ← pair? a b
    return high * 256 + (← pair? c d)
  | _ => none

/-- The character that an escape sequence stands for, and how many characters follow the backslash
in it. A code unit that is half of a pair must be followed by its other half. -/
def unescape? : List Char → Option (Char × Nat)
  | [] => none
  | '"' :: _ => some ('"', 1)
  | '\\' :: _ => some ('\\', 1)
  | '/' :: _ => some ('/', 1)
  | 'b' :: _ => some ('\x08', 1)
  | 'f' :: _ => some ('\x0c', 1)
  | 'n' :: _ => some ('\n', 1)
  | 'r' :: _ => some ('\r', 1)
  | 't' :: _ => some ('\t', 1)
  | 'u' :: rest => do
    let high ← unit? rest
    if 0xd800 ≤ high ∧ high < 0xdc00 then
      match rest.drop 4 with
      | '\\' :: 'u' :: rest =>
        let low ← unit? rest
        if 0xdc00 ≤ low ∧ low < 0xe000 then
          return (Char.ofNat (0x10000 + (high - 0xd800) * 0x400 + (low - 0xdc00)), 11)
        else none
      | _ => none
    else if 0xdc00 ≤ high ∧ high < 0xe000 then none
    else return (Char.ofNat high, 5)
  | _ => none

/-- The characters of a string up to its closing quote, and how many characters of the text that
takes, the quote included. -/
def takeString? : List Char → Option (List Char × Nat)
  | [] => none
  | c :: rest =>
    if c = '"' then some ([], 1)
    else if c = '\\' then do
      let (e, n) ← unescape? rest
      let (cs, m) ← takeString? (rest.drop n)
      return (e :: cs, n + m + 1)
    else if c.toNat < 0x20 then none
    else do
      let (cs, m) ← takeString? rest
      return (c :: cs, m + 1)
termination_by cs => cs.length
decreasing_by all_goals simp [List.length_drop]; try omega

/-- A scalar token whose spelling is a word. -/
def word? (cs : List Char) : Option (Token × Nat) :=
  if ['n', 'u', 'l', 'l'].isPrefixOf cs then some (.scalar .null, 4)
  else if ['t', 'r', 'u', 'e'].isPrefixOf cs then some (.scalar (.bool true), 4)
  else if ['f', 'a', 'l', 's', 'e'].isPrefixOf cs then some (.scalar (.bool false), 5)
  else none

/-- The first token of a text that starts with `c`, and how many characters after `c` belong to
it. -/
def token? (c : Char) (rest : List Char) : Option (Token × Nat) :=
  match c with
  | '[' => some (.openArray, 0)
  | ']' => some (.closeArray, 0)
  | '\x7b' => some (.openObject, 0)
  | '\x7d' => some (.closeObject, 0)
  | ',' => some (.comma, 0)
  | ':' => some (.colon, 0)
  | '"' => (takeString? rest).map fun (cs, n) ↦ (.scalar (.string (String.ofList cs)), n)
  | c =>
    if isNumberChar c then do
      let more := rest.takeWhile isNumberChar
      let literal ← Literal.ofChars? (c :: more)
      return (.scalar (.number (← literal.number?)), more.length)
    else (word? (c :: rest)).map fun (t, n) ↦ (t, n - 1)

/-- The tokens of a text, blanks between them left out. -/
def tokens? : List Char → Option (List Token)
  | [] => some []
  | c :: rest =>
    if isSpace c then tokens? rest
    else do
      let (t, n) ← token? c rest
      return t :: (← tokens? (rest.drop n))
termination_by cs => cs.length
decreasing_by all_goals simp [List.length_drop]; try omega

/-! ## Documents -/

/-- An array or object that is still open, with what it holds so far, last first. -/
inductive Frame
  /-- An array. -/
  | array (items : List Json)
  /-- An object, and the key of the value that comes next. -/
  | object (members : List (String × Json)) (key : String)
  deriving Repr, Inhabited

/-- The nesting that is too deep. -/
def maxDepth : Nat := 128

mutual

/-- Reads a value from the tokens, and then whatever the open containers need. -/
def value? (stack : List Frame) : List Token → Option Json
  | .scalar j :: ts => close? stack j ts
  | .openArray :: ts =>
    if maxDepth ≤ stack.length + 1 then none
    else
      match ts with
      | .closeArray :: ts => close? stack (.array []) ts
      | ts => value? (.array [] :: stack) ts
  | .openObject :: ts =>
    if maxDepth ≤ stack.length + 1 then none
    else
      match ts with
      | .closeObject :: ts => close? stack (.object []) ts
      | .scalar (.string key) :: .colon :: ts => value? (.object [] key :: stack) ts
      | _ => none
  | _ => none

/-- Goes on after a value has been read: it ends the text, or stands in an open container that
either ends or goes on with one more value. -/
def close? : List Frame → Json → List Token → Option Json
  | [], j, [] => some j
  | .array items :: stack, j, .comma :: ts => value? (.array (j :: items) :: stack) ts
  | .array items :: stack, j, .closeArray :: ts => close? stack (.array (j :: items).reverse) ts
  | .object members key :: stack, j, .comma :: .scalar (.string next) :: .colon :: ts =>
    value? (.object ((key, j) :: members) next :: stack) ts
  | .object members key :: stack, j, .closeObject :: ts =>
    close? stack (.object ((key, j) :: members).reverse) ts
  | _, _, _ => none

end

/-- The document that tokens write. -/
def ofTokens? (ts : List Token) : Option Json := value? [] ts

/-- The document that a text writes, members as they stand in it. -/
def read? (s : String) : Option Json := (tokens? s.toList).bind ofTokens?

/-- The document that a text writes, in canonical form. -/
def parse? (s : String) : Option Json := (read? s).map canonical

/-- The document that bytes write, in canonical form. -/
def parseBytes? (bytes : List UInt8) : Option Json := (Text.Utf8.decode? bytes).bind parse?

end CallCheck.Json

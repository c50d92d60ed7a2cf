import CallCheck.Numeric.Numeral
import CallCheck.Text.Uuid

/-!
# Tokens of schema sources

The words, numbers, texts and signs that a schema source is made of. Comments and blanks are left
out.
-/

namespace CallCheck.Schema.Source

open Numeric

/-- A token. -/
inductive Token
  /-- A name or keyword. -/
  | word (s : String)
  /-- An integer. -/
  | integer (n : Nat)
  /-- A number that is no integer. -/
  | real (s : String)
  /-- A quoted text. -/
  | text (s : String)
  /-- Any other sign. -/
  | sign (c : Char)
  deriving DecidableEq, Repr

/-- A character that words start with. -/
def isWordStart (c : Char) : Bool := c.isAlpha || c == '_'

/-- A character that words go on with. -/
def isWordChar (c : Char) : Bool := c.isAlphanum || c == '_'

/-- A blank. -/
def isSpace (c : Char) : Bool :=
  c == ' ' || c == '\n' || c == '\t' || c == '\r' || c == '\x0b' || c == '\x0c'

/-- A sign. -/
def isSign (c : Char) : Bool := ";,.:=-+()[]<>/\x7b\x7d".toList.contains c

/-- The number that digits of a base write. -/
def digits? (base : Nat) (cs : List Char) : Option Nat :=
  if cs.isEmpty then none
  else cs.foldlM (fun n c ↦ do
    let d ← Text.Hex.value? c
    if d < base then some (n * base + d) else none) 0

/-- A number token: decimal, or hexadecimal or octal after its mark, or not an integer. -/
def number? (cs : List Char) : Option Token :=
  match cs with
  | '0' :: 'x' :: rest => (digits? 16 rest).map .integer
  | '0' :: 'X' :: rest => (digits? 16 rest).map .integer
  | '0' :: d :: rest =>
    if isDigit d then (digits? 8 (d :: rest)).map .integer
    else if (Numeral.ofChars? cs).isSome then some (.real (String.ofList cs)) else none
  | _ =>
    if cs.all isDigit then some (.integer (natOfDigits 0 cs))
    else if (Numeral.ofChars? cs).isSome then some (.real (String.ofList cs)) else none

/-- The characters up to the closing quote, and how many characters that takes, the quote
included. -/
def quoted? (quote : Char) : List Char → Option (List Char × Nat)
  | [] => none
  | '\\' :: c :: rest => do
    let e ← match c with
      | 'n' => some '\n'
      | 't' => some '\t'
      | 'r' => some '\r'
      | '\\' => some '\\'
      | '\'' => some '\''
      | '"' => some '"'
      | '?' => some '?'
      | _ => none
    let (cs, n) ← quoted? quote rest
    return (e :: cs, n + 2)
  | c :: rest =>
    if c = quote then some ([], 1)
    else if c = '\n' ∨ c = '\x00' then none
    else (quoted? quote rest).map fun (cs, n) ↦ (c :: cs, n + 1)

/-- How many characters a comment takes after its opening `/*`. -/
def comment? : List Char → Option Nat
  | '*' :: '/' :: _ => some 2
  | _ :: rest => (comment? rest).map (· + 1)
  | [] => none

/-- What stands at the start of a text after `c`: a token or nothing, and how many characters after
`c` belong to it. -/
def token? (c : Char) (rest : List Char) : Option (Option Token × Nat) :=
  if isSpace c then some (none, 0)
  else if isWordStart c then
    let more := rest.takeWhile isWordChar
    some (some (.word (String.ofList (c :: more))), more.length)
  else if isDigit c then
    let more := rest.takeWhile fun d ↦ isWordChar d || d == '.'
    (number? (c :: more)).map fun t ↦ (some t, more.length)
  else if c = '"' ∨ c = '\'' then
    (quoted? c rest).map fun (cs, n) ↦ (some (.text (String.ofList cs)), n)
  else if c = '/' then
    match rest with
    | '/' :: line => some (none, 1 + (line.takeWhile (· != '\n')).length)
    | '*' :: inside => (comment? inside).map fun n ↦ (none, 1 + n)
    | _ => some (some (.sign c), 0)
  else if isSign c then some (some (.sign c), 0)
  else none

/-- The tokens of a source. -/
def tokens? : List Char → Option (List Token)
  | [] => some []
  | c :: rest => do
    let (t, n) ← token? c rest
    return t.toList ++ (← tokens? (rest.drop n))
termination_by cs => cs.length
decreasing_by simp only [List.length_drop, List.length_cons]; omega

end CallCheck.Schema.Source

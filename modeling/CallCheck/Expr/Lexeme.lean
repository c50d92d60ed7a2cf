import CallCheck.Expr.Error
import CallCheck.Numeric.Numeral
import CallCheck.Text.Alphabetic
import CallCheck.Text.Basic
import CallCheck.Text.Utf8

/-!
# Lexemes

Cutting a source into tokens. Blanks separate tokens and mean nothing else. `lexeme` reads the one
token that a text starts with, by its first character:

* punctuation is a token of its own;
* a sign `$` or `@` and the letters after it spell a keyword;
* digits spell an integer, and a number with a fraction if a point and one more digit follow;
* letters spell an identifier;
* a quote opens a text, in which a backslash before a quote or a backslash stands for that
  character and any other backslash for itself.

Every run of letters or digits is taken as far as it goes.
-/

namespace CallCheck.Expr

open Numeric Text

/-- Why no token can be read at a place. -/
inductive Fault
  /-- No token starts with this character. -/
  | unexpected (c : Char)
  /-- No keyword is spelled like this. -/
  | unknown (keyword : String)
  /-- The closing quote is missing. -/
  | unterminated
  /-- The number is too large. -/
  | overflow (literal : String)
  deriving DecidableEq, Repr

/-- A fault at an offset. -/
def Fault.at (offset : Nat) : Fault → Error
  | .unexpected c => .unexpectedChar c offset
  | .unknown keyword => .unknownKeyword keyword offset
  | .unterminated => .unterminatedString offset
  | .overflow literal => .invalidNumber literal offset

/-- The keywords and their tokens. -/
def keywords : List (String × Token) :=
  [("$env", .global .env), ("$res", .global .res), ("$req", .global .req),
   ("$body", .attr .body), ("$json", .attr .json), ("$str", .attr .str),
   ("$header", .attr .header), ("$raw", .attr .raw), ("@contain", .function .contain)]

/-- A token read from a text that starts with some character, and how many characters after that
one belong to it. -/
abbrev Read := Except Fault (Token × Nat)

/-- The keyword of a sign and the letters after it. -/
def keyword (sign : Char) (rest : List Char) : Read :=
  let letters := rest.takeWhile isAlphabetic
  let word := String.ofList (sign :: letters)
  match keywords.lookup word with
  | some token => .ok (token, letters.length)
  | none => .error (.unknown word)

/-- The largest integer of an expression. -/
def maxInt : Nat := Numeric.maxSigned 64

/-- The number that starts with a digit. -/
def number (c : Char) (rest : List Char) : Read :=
  let whole := c :: rest.takeWhile isDigit
  match rest.dropWhile isDigit with
  | '.' :: d :: more =>
    if isDigit d then
      let fraction := d :: more.takeWhile isDigit
      .ok (.real (.ofDecimal false ⟨natOfDigits 0 (whole ++ fraction), -(fraction.length : Int)⟩),
        whole.length + fraction.length)
    else integer whole
  | _ => integer whole
where
  /-- The integer that digits spell. -/
  integer (ds : List Char) : Read :=
    let n := natOfDigits 0 ds
    if n ≤ maxInt then .ok (.number (Int64.ofNat n), ds.length - 1)
    else .error (.overflow (String.ofList ds))

/-- The characters of a quoted text up to its closing quote, and how many characters of the source
that takes, the quote included. -/
def quotedText : List Char → Option (List Char × Nat)
  | [] => none
  | '"' :: _ => some ([], 1)
  | '\\' :: [] => none
  | '\\' :: c :: rest =>
    (quotedText rest).map fun (cs, n) ↦
      (if c = '"' ∨ c = '\\' then c :: cs else '\\' :: c :: cs, n + 2)
  | c :: rest => (quotedText rest).map fun (cs, n) ↦ (c :: cs, n + 1)

/-- The token of a text that starts with `c`. -/
def lexeme (c : Char) (rest : List Char) : Read :=
  match c with
  | '.' => .ok (.dot, 0)
  | '=' => .ok (.assign, 0)
  | ',' => .ok (.comma, 0)
  | '(' => .ok (.leftParen, 0)
  | ')' => .ok (.rightParen, 0)
  | '"' =>
    match quotedText rest with
    | some (cs, n) => .ok (.string (String.ofList cs), n)
    | none => .error .unterminated
  | c =>
    if c = '$' ∨ c = '@' then keyword c rest
    else if isDigit c then number c rest
    else if isAlphabetic c then
      let letters := rest.takeWhile isAlphabetic
      .ok (.identifier (String.ofList (c :: letters)), letters.length)
    else .error (.unexpected c)

/-- The tokens of a text that starts at `offset`, and where it ends. -/
def scan (offset : Nat) : List Char → Except Error Tokens
  | [] => .ok ⟨[], offset⟩
  | c :: rest =>
    if isBlank c then scan (offset + c.utf8Size) rest
    else
      match lexeme c rest with
      | .error fault => .error (fault.at offset)
      | .ok (token, n) =>
        (scan (offset + Utf8.width (c :: rest.take n)) (rest.drop n)).map fun ts ↦
          { ts with list := ⟨token, offset⟩ :: ts.list }
termination_by cs => cs.length
decreasing_by all_goals simp [List.length_drop]; try omega

/-- The tokens of a source. -/
def tokenize (source : String) : Except Error Tokens := scan 0 source.toList

end CallCheck.Expr

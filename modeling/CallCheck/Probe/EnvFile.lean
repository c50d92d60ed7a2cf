import CallCheck.Text.Alphabetic
import CallCheck.Text.Basic

/-!
# Files of variables

A file of variables has one on each line, as `NAME=value`. A value may be quoted, and then go on
over several lines; outside single quotes it may name variables after a dollar sign and escape
characters with a backslash. What is set already is not set again. Reading ends at the first line
that is malformed.

## Two passes

The first pass finds where a line ends, which depends on quotes and on comments only. The second
reads the name and the value. The two do not always see quotes alike: a name after a dollar sign
swallows the character that ends it, even if that is a quote.
-/

namespace CallCheck.Probe.EnvFile

/-- Variables with their values. -/
abbrev Variables := List (String × String)

/-! ## Lines -/

/-- What a character stands in, while the end of a line is looked for. -/
inductive Quoting
  | plain
  /-- After a blank, where a comment can begin. -/
  | blank
  /-- After a backslash. -/
  | escape
  | double
  | doubleEscape
  | single
  | singleEscape
  deriving DecidableEq, Repr

/-- What the character after this one stands in. -/
def Quoting.next (q : Quoting) (c : Char) : Quoting :=
  match q with
  | .plain | .blank =>
    if c = '\\' then .escape
    else if c = '"' then .double
    else if c = '\'' then .single
    else if q = .plain ∧ Text.isBlank c ∧ c ≠ '\n' ∧ c ≠ '\r' then .blank
    else .plain
  | .escape => .plain
  | .double => if c = '\\' then .doubleEscape else if c = '"' then .plain else .double
  | .doubleEscape => .double
  | .single => if c = '\\' then .singleEscape else if c = '\'' then .plain else .single
  | .singleEscape => .single

/-- How the end of a line is found. -/
inductive Scan
  /-- Characters are being read. -/
  | reading (line : List Char) (quoting : Quoting)
  /-- A comment has begun, which ends the line with it. -/
  | comment (line : List Char)

/-- Goes on to the next character of a line. -/
def Scan.next (s : Scan) (c : Char) : Scan :=
  match s with
  | .reading line q =>
    if q = .blank ∧ c = '#' then .comment line else .reading (line ++ [c]) (q.next c)
  | s => s

/-- A text cut after every line end. -/
def physicalLines (cs : List Char) : List (List Char) :=
  let rec go (line : List Char) : List Char → List (List Char)
    | [] => if line.isEmpty then [] else [line.reverse]
    | c :: rest => if c = '\n' then (c :: line).reverse :: go [] rest else go (c :: line) rest
  go [] cs

/-- A line without the characters that end it. -/
def withoutLineEnd (line : List Char) : List Char :=
  match line.reverse with
  | '\n' :: '\r' :: rest => rest.reverse
  | '\n' :: rest => rest.reverse
  | _ => line

/-- The lines of a file, where a quoted value goes on over line ends; the last is nothing if it is
not finished. -/
def lines (scan : Scan) : List (List Char) → List (Option (List Char))
  | [] =>
    match scan with
    | .reading [] _ => []
    | _ => [none]
  | physical :: rest =>
    let before := match scan with
      | .reading line _ => line
      | .comment line => line
    if ((before ++ physical).dropWhile Text.isBlank).head? = some '#' then
      some [] :: lines (.reading [] .plain) rest
    else
      match physical.foldl Scan.next scan with
      | .comment line => some line :: lines (.reading [] .plain) rest
      | .reading line .plain => some (withoutLineEnd line) :: lines (.reading [] .plain) rest
      | scan => lines scan rest

/-! ## Values -/

/-- What a character of a value stands in. -/
inductive Mode
  | plain
  | single
  | double
  /-- After a backslash, in double quotes or not. -/
  | escape (quoted : Bool)
  /-- In a name after a dollar sign. -/
  | name (quoted : Bool) (read : List Char)
  /-- In a name in braces. -/
  | braces (quoted : Bool) (read : List Char)
  /-- After the value, where blanks and a comment can follow. -/
  | ended
  | comment
  deriving DecidableEq, Repr

/-- The mode outside of names and escapes. -/
def Mode.outside (quoted : Bool) : Mode := if quoted then .double else .plain

/-- The characters that a backslash stands before. -/
def unescape? (c : Char) : Option Char :=
  if c = 'n' then some '\n' else if "\\'\"$ ".toList.contains c then some c else none

/-- Reads the next character of a value; nothing if it cannot stand there. -/
def readValueChar (value : String → List Char) (state : Mode × List Char) (c : Char) :
    Option (Mode × List Char) :=
  let (mode, out) := state
  match mode with
  | .comment => some state
  | .ended =>
    if c = ' ' ∨ c = '\t' then some state
    else if c = '#' then some (.comment, out)
    else none
  | .escape quoted => (unescape? c).map fun c ↦ (.outside quoted, out ++ [c])
  | .single => some (if c = '\'' then (.plain, out) else (.single, out ++ [c]))
  | .name quoted read =>
    if Text.isAlphabetic c || c.isDigit then some (.name quoted (read ++ [c]), out)
    else if c = '\x7b' ∧ read = [] then some (.braces quoted [], out)
    else
      let out := out ++ value (String.ofList read)
      some (if c = '$' then (.name quoted [], out) else (.outside quoted, out ++ [c]))
  | .braces quoted read =>
    some (if c = '\x7d' then (.outside quoted, out ++ value (String.ofList read))
      else (.braces quoted (read ++ [c]), out))
  | .double =>
    some (if c = '$' then (.name true [], out)
      else if c = '"' then (.plain, out)
      else if c = '\\' then (.escape true, out)
      else (.double, out ++ [c]))
  | .plain =>
    some (if c = '$' then (.name false [], out)
      else if c = '\'' then (.single, out)
      else if c = '"' then (.double, out)
      else if c = '\\' then (.escape false, out)
      else if c = ' ' ∨ c = '\t' then (.ended, out)
      else (.plain, out ++ [c]))

/-- The value that characters write, given the values of names. -/
def readValue (value : String → List Char) (cs : List Char) : Option String :=
  match cs.foldlM (readValueChar value) (.plain, []) with
  | none => none
  | some (mode, out) =>
    match mode with
    | .single | .double | .escape true | .name true _ | .braces _ _ => none
    | .name false read => some (String.ofList (out ++ value (String.ofList read)))
    | _ => some (String.ofList out)

/-! ## Definitions -/

/-- The name at the start of a line, and what follows it. -/
def cutName (cs : List Char) : Option (String × List Char) :=
  let isNameChar (c : Char) : Bool := c.isAlpha || c.isDigit || c == '_' || c == '.'
  match cs with
  | c :: _ =>
    if c.isAlpha || c == '_' then
      some (String.ofList (cs.takeWhile isNameChar), cs.dropWhile isNameChar)
    else none
  | [] => none

/-- What follows the sign between a name and a value. -/
def afterSign : List Char → Option (List Char)
  | '=' :: rest => some (rest.dropWhile Text.isBlank)
  | _ => none

/-- A line with nothing on it, or else a name and the text of its value. The word `export` may
stand before a name. -/
def readLine (cs : List Char) : Option (Option (String × List Char)) := do
  let cs := cs.dropWhile Text.isBlank
  if cs.isEmpty || cs.head? == some '#' then return none
  let (name, rest) ← cutName cs
  let rest := rest.dropWhile Text.isBlank
  match afterSign rest with
  | some value => return some (name, value)
  | none =>
    if name = "export" then
      let (name, rest) ← cutName rest
      return some (name, ← afterSign (rest.dropWhile Text.isBlank))
    else none

/-- The variables after the lines of a file. `written` are the values that the file gives, even if
they are not set because they were set already. -/
def define (set written : Variables) : List (Option (List Char)) → Variables
  | [] => set
  | none :: _ => set
  | some line :: rest =>
    match readLine line with
    | none => set
    | some none => define set written rest
    | some (some (name, text)) =>
      let value (name : String) : List Char :=
        (((set.lookup name).or (written.lookup name)).getD "").toList
      let read := if text.isEmpty || text.head? == some '#' then some "" else readValue value text
      match read with
      | none => set
      | some v =>
        let set' := if (set.lookup name).isSome then set else set ++ [(name, v)]
        define set' ((name, v) :: written) rest

/-- The variables after a file of variables. -/
def load (set : Variables) (text : String) : Variables :=
  let cs := match text.toList with
    | '\ufeff' :: rest => rest
    | cs => cs
  define set [] (lines (.reading [] .plain) (physicalLines cs))

end CallCheck.Probe.EnvFile

import CallCheck.Numeric.Numeral
import CallCheck.Text.Uuid

/-!
# Server names

What the certificate of a server can be checked against: the name of a domain, or an address of
the internet in numbers.
-/

namespace CallCheck.Session

/-- The parts of a text around a character. -/
def splitAt (separator : Char) (cs : List Char) : List (List Char) :=
  let rec go (part : List Char) : List Char → List (List Char)
    | [] => [part.reverse]
    | c :: rest => if c = separator then part.reverse :: go [] rest else go (c :: part) rest
  go [] cs

/-! ## Domains -/

/-- A part of the name of a domain: letters, digits, underscores and inner hyphens, at most 63. -/
def isLabel (cs : List Char) : Bool :=
  !cs.isEmpty && decide (cs.length ≤ 63) && cs.head? != some '-' && cs.getLast? != some '-' &&
    cs.all fun c ↦ c.isAlpha || c.isDigit || c == '_' || c == '-'

/-- Whether a text is the name of a domain. The last part is not a number; a dot may follow it. -/
def isDomain (cs : List Char) : Bool :=
  let labels := splitAt '.' cs
  let labels := if labels.getLast? = some [] then labels.dropLast else labels
  decide (cs.length ≤ 253) && labels.all isLabel &&
    labels.getLast?.any fun label ↦ !label.all Char.isDigit

/-! ## Addresses in numbers -/

/-- A number below 256, without leading zeros. -/
def isOctet (cs : List Char) : Bool :=
  decide (cs.length ≤ 3) && (cs.length == 1 || cs.head? != some '0') &&
    (Numeric.nat? cs).any fun n ↦ decide (n < 256)

/-- Four numbers between dots. -/
def isIPv4 (cs : List Char) : Bool :=
  let parts := splitAt '.' cs
  parts.length == 4 && parts.all isOctet

/-- One to four hexadecimal digits. -/
def isGroup (cs : List Char) : Bool :=
  !cs.isEmpty && decide (cs.length ≤ 4) && cs.all fun c ↦ (Text.Hex.value? c).isSome

/-- The number of groups of 16 bits that a text between colons has, where the last two may be
written as four numbers. -/
def groupCount? (cs : List Char) : Option Nat :=
  if cs.isEmpty then some 0
  else
    let parts := splitAt ':' cs
    if parts.all isGroup then some parts.length
    else if parts.dropLast.all isGroup && (parts.getLast?.any isIPv4) then some (parts.length + 1)
    else none

/-- The texts before and after the first two colons in a row. -/
def cutDoubleColon : List Char → Option (List Char × List Char)
  | ':' :: ':' :: rest => some ([], rest)
  | c :: rest => (cutDoubleColon rest).map fun (a, b) ↦ (c :: a, b)
  | [] => none

/-- Eight groups between colons, where two colons stand for groups of zeros. -/
def isIPv6 (cs : List Char) : Bool :=
  match cutDoubleColon cs with
  | none => groupCount? cs == some 8
  | some (before, after) =>
    match groupCount? before, groupCount? after with
    | some m, some n => decide (m + n < 8) && (before.isEmpty || (splitAt ':' before).all isGroup)
    | _, _ => false

/-- Whether the certificate of a server can be checked against a text. -/
def isServerName (s : String) : Bool :=
  let cs := s.toList
  isDomain cs || isIPv4 cs || isIPv6 cs

end CallCheck.Session

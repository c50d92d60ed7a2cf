import CallCheck.Text.Base64
import CallCheck.Text.Basic
import CallCheck.Text.Utf8

/-!
# Certificates and keys as text

Sections of base 64 between a line that begins a kind of section and one that ends it. Lines
outside of sections mean nothing.
-/

namespace CallCheck.Session.Pem

/-- A section. -/
structure Section where
  /-- What it holds. -/
  label : String
  /-- What its text stands for. -/
  content : List UInt8
  deriving DecidableEq, Repr

/-- The lines of a text without the blanks after them. -/
def lines (cs : List Char) : List (List Char) :=
  let rec go (line : List Char) : List Char → List (List Char)
    | [] => [line.reverse]
    | c :: rest => if c = '\n' then line.reverse :: go [] rest else go (c :: line) rest
  (go [] cs).map fun line ↦ (line.reverse.dropWhile Text.isBlank).reverse

/-- What a line marks, if it stands between five hyphens on either side after `word`. -/
def marker? (word : String) (line : List Char) : Option String :=
  let opening := ("-----" ++ word ++ " ").toList
  let label := line.drop opening.length
  if opening.isPrefixOf line && "-----".toList.isSuffixOf label then
    some (String.ofList (label.take (label.length - 5)))
  else none

/-- The sections of lines; `current` is the section that has begun, and its text so far. Nothing
if a section does not end or its text is not base 64. -/
def sections? (current : Option (String × List Char)) : List (List Char) → Option (List Section)
  | [] => if current.isNone then some [] else none
  | line :: rest =>
    match current with
    | none => sections? ((marker? "BEGIN" line).map (·, [])) rest
    | some (label, text) =>
      if marker? "END" line = some label then do
        let content ← Text.Base64.decodeChars? Text.Base64.standard text
        return ⟨label, content⟩ :: (← sections? none rest)
      else sections? (some (label, text ++ line.filter (!Text.isBlank ·))) rest

/-- The sections of a text. -/
def read? (bytes : List UInt8) : Option (List Section) :=
  sections? none (lines (Text.Utf8.decodeLossy bytes).toList)

/-- Whether bytes are one sequence in the encoding of certificates: a mark, the length of what
follows, and as many bytes. -/
def isSequence : List UInt8 → Bool
  | 0x30 :: n :: rest =>
    if n < 0x80 then rest.length == n.toNat
    else
      let width := n.toNat - 0x80
      let length := (rest.take width).foldl (fun sum b ↦ sum * 0x100 + b.toNat) 0
      decide (1 ≤ width) && decide (width ≤ 4) && rest.length == width + length
  | _ => false

/-- Whether every certificate of a text is one. -/
def hasCertificates (bytes : List UInt8) : Bool :=
  (read? bytes).any fun found ↦
    (found.filter (·.label == "CERTIFICATE")).all fun s ↦ isSequence s.content

/-- Whether a text holds a key. -/
def hasKey (bytes : List UInt8) : Bool :=
  (read? bytes).any fun found ↦ found.any fun s ↦
    ["PRIVATE KEY", "RSA PRIVATE KEY", "EC PRIVATE KEY"].contains s.label && isSequence s.content

/-- Whether a text holds at least one certificate. -/
def hasChain (bytes : List UInt8) : Bool :=
  hasCertificates bytes &&
    ((read? bytes).any fun found ↦ found.any fun s ↦ s.label == "CERTIFICATE")

end CallCheck.Session.Pem

import CallCheck.Call.Target

/-!
# Addresses

An address names a scheme, an authority (user, host and port) and a path. A scheme needs an
authority after it; without a scheme a text is an authority and nothing more, or else a path.
-/

namespace CallCheck.Session

/-- Why a text is no address. -/
inductive AddressFault
  /-- There is nothing. -/
  | empty
  /-- The text is longer than an address may be. -/
  | tooLong
  /-- The scheme is longer than a scheme may be. -/
  | longScheme
  /-- A character does not belong in an address. -/
  | character
  /-- The authority has too many colons, loose brackets, or no host. -/
  | authority
  /-- The parts do not make up an address. -/
  | format
  deriving DecidableEq, Repr

/-- What is said about a fault. -/
def AddressFault.message : AddressFault → String
  | .empty => "empty string"
  | .tooLong => "uri too long"
  | .longScheme => "scheme too long"
  | .character => "invalid uri character"
  | .authority => "invalid authority"
  | .format => "invalid format"

/-! ## Authorities -/

/-- An ASCII letter or digit. -/
def isAlphanumeric (c : Char) : Bool := c.isAlpha || c.isDigit

/-- A character that can stand in an authority without more ado. -/
def isAuthorityChar (c : Char) : Bool := isAlphanumeric c || "!$&'()*+,-.;=_~".toList.contains c

/-- A character that ends an authority. -/
def endsAuthority (c : Char) : Bool := c == '/' || c == '?' || c == '#'

/-- What counts of the characters of an authority that have been read. -/
structure AuthorityScan where
  /-- Colons since the user or the brackets. -/
  colons : Nat := 0
  /-- Whether a bracket has been opened. -/
  opened : Bool := false
  /-- Whether a bracket has been closed. -/
  closed : Bool := false
  /-- Whether a percent sign stands in the host. -/
  percent : Bool := false
  /-- Whether the last character ends the user. -/
  user : Bool := false
  deriving DecidableEq, Repr

namespace AuthorityScan

/-- Goes on to the next character. -/
def next (s : AuthorityScan) (c : Char) : Except AddressFault AuthorityScan :=
  let s := { s with user := false }
  if c = ':' then
    if 8 ≤ s.colons then .error .authority else .ok { s with colons := s.colons + 1 }
  else if c = '[' then
    if s.percent || s.opened then .error .authority else .ok { s with opened := true }
  else if c = ']' then
    if !s.opened || s.closed then .error .authority
    else .ok { s with closed := true, colons := 0, percent := false }
  else if c = '@' then .ok { s with colons := 0, percent := false, user := true }
  else if c = '%' then .ok { s with percent := true }
  else if isAuthorityChar c then .ok s
  else .error .character

/-- Whether what has been read is an authority. -/
def isWhole (s : AuthorityScan) : Bool :=
  s.opened == s.closed && decide (s.colons ≤ 1) && !s.user && !s.percent

end AuthorityScan

/-- The authority at the start of a text, which may be empty, and what follows it. -/
def cutAuthority (cs : List Char) : Except AddressFault (List Char × List Char) := do
  let authority := cs.takeWhile (!endsAuthority ·)
  let scan ← authority.foldlM AuthorityScan.next {}
  if scan.isWhole then return (authority, cs.dropWhile (!endsAuthority ·)) else throw .authority

/-- The host of an authority: what stands between the user and the port. Brackets belong to it. -/
def hostOf (authority : List Char) : List Char :=
  let rest := (authority.reverse.takeWhile (· != '@')).reverse
  if rest.head? = some '[' then rest.takeWhile (· != ']') ++ [']']
  else rest.takeWhile (· != ':')

/-! ## Schemes -/

/-- A character of a scheme. -/
def isSchemeChar (c : Char) : Bool := isAlphanumeric c || "+-.~".toList.contains c

/-- The scheme of a text and what follows it, if the text starts with one. -/
def cutScheme (cs : List Char) : Except AddressFault (Option (List Char × List Char)) :=
  let scheme := cs.takeWhile isSchemeChar
  match cs.dropWhile isSchemeChar with
  | ':' :: '/' :: '/' :: rest =>
    if cs.length ≤ 3 then .ok none
    else if 64 < scheme.length then .error .longScheme
    else .ok (some (scheme, rest))
  | _ => .ok none

/-! ## Addresses -/

/-- The parts of an address that connections look at. -/
structure Address where
  /-- The host, unless the address is a path only. -/
  host : Option String
  deriving DecidableEq, Repr

/-- The longest address, in bytes. -/
def longestAddress : Nat := 65534

/-- The address that a text writes. One that starts with `unix:` is the path of a socket. -/
def Address.ofText (text : String) : Except AddressFault Address :=
  let cs := text.toList
  if "unix:".toList.isPrefixOf cs then .ok ⟨none⟩
  else if longestAddress < text.utf8ByteSize then .error .tooLong
  else if cs.isEmpty then .error .empty
  else if cs.head? = some '/' then
    if (Call.requestPath? text).isSome then .ok ⟨none⟩ else .error .character
  else do
    match ← cutScheme cs with
    | none =>
      let (authority, rest) ← cutAuthority cs
      if rest.isEmpty then return ⟨some (String.ofList (hostOf authority))⟩ else throw .format
    | some (_, rest) =>
      let (authority, path) ← cutAuthority rest
      if authority.isEmpty then throw .format
      else if (Call.requestPath? (String.ofList path)).isSome then
        return ⟨some (String.ofList (hostOf authority))⟩
      else throw .character

end CallCheck.Session

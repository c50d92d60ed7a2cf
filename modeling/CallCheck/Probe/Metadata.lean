import CallCheck.Call.Target
import CallCheck.Probe.Failure
import CallCheck.Text.Basic

/-!
# Metadata

Metadata is given in the form `key: value`, and the first colon ends the key. Keys and values travel
as headers, and not every text can. A key that ends in `-bin` announces bytes, which no value given
as text is.
-/

namespace CallCheck.Probe

/-- The key and value of a pair: the key in lower case, both without blanks around them. -/
def parseMetadata (pair : String) : Except Failure (String × String) :=
  match Call.Target.cutFirst ':' pair.toList with
  | none => .error (.note s!"metadata `{pair}` is not in `key: value` form")
  | some (key, value) =>
    let key := Text.asciiLower (String.ofList (Text.trimChars key))
    if key.isEmpty then .error (.note s!"metadata `{pair}` has an empty key")
    else .ok (key, String.ofList (Text.trimChars value))

/-- A character of a key. -/
def isKeyChar (c : Char) : Bool :=
  c.isAlpha || c.isDigit || "!#$%&'*+-.^_`|~".toList.contains c

/-- The longest key. -/
def longestKey : Nat := 65535

/-- Whether a text can be a key. -/
def isKey (key : String) : Bool :=
  let cs := key.toList
  !cs.isEmpty && decide (cs.length ≤ longestKey) && cs.all isKeyChar && !"-bin".toList.isSuffixOf cs

/-- Whether a text can be a value: a tab is its only control character. -/
def isValue (value : String) : Bool :=
  value.toList.all fun c ↦ c == '\t' || (decide (0x20 ≤ c.toNat) && c.toNat != 0x7f)

/-- Keys and values that can be sent. -/
def checkHeaders : List (String × String) → Except Failure Unit
  | [] => .ok ()
  | (key, value) :: rest =>
    if !isKey key then .error ⟨[s!"invalid metadata key `{key}`"], .metadata⟩
    else if !isValue value then .error ⟨[s!"invalid metadata value for `{key}`"], .metadata⟩
    else checkHeaders rest

end CallCheck.Probe

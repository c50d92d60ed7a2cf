import CallCheck.Files
import CallCheck.Probe.Entry
import CallCheck.Probe.Failure
import CallCheck.Text.Basic

/-!
# Collections

A collection is a JSON array of entries, to be called in order.
-/

namespace CallCheck.Probe.Collection

/-- The entries of a document. -/
def ofJson? : Json → Option (List Entry)
  | .array items => items.mapM Entry.ofJson?
  | _ => none

/-- The entries that a text writes. Each must name a method. -/
def parse (text : String) : Except Failure (List Entry) :=
  match (Json.read? text).bind ofJson? with
  | none => .error ⟨["invalid collection"], .json⟩
  | some entries =>
    match entries.find? fun e ↦ (Text.trimChars e.call.toList).isEmpty with
    | some e => .error (.note s!"entry `{e.name}` has no call target")
    | none => .ok entries

/-- The entries of a file. -/
def load (files : Files) (path : String) : Except Failure (List Entry) :=
  match files.text? path with
  | none => .error ⟨[s!"failed to read collection {path}"], .file⟩
  | some text => within s!"in {path}" (parse text)

end CallCheck.Probe.Collection

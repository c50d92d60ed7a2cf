import CallCheck.Call.Data
import CallCheck.Probe.Harness
import CallCheck.Proofs.Json.Filling

/-!
# Payloads

A payload is written as text, the slots of environment values in the text are filled, then those of
the data of the call, and what comes of it is read as a document. Nothing is escaped on the way, and
a slot may begin in one string and end in another, so the document that is read need not be the
payload with its strings filled.

## Main statement

`Probe.read?_fillIn`: what is read has the structure of the payload as long as each slot that is
filled stands within one string and what it is filled with can stand in a string as it is. It is the
payload with each string filled on its own if besides no slot at all reaches out of its string, and
each stands for the escaped form of what it stands for in the string. `Probe.fillIn_breaks` shows
that neither holds without the conditions.
-/

namespace CallCheck

open Text.Template

/-- What the body of a slot stands for in the environment. -/
def Probe.Harness.known (h : Probe.Harness) (body : String) : Option String :=
  (name? body).bind fun name ↦ (h.env.get? name).map Expr.Value.text

/-- What the body of a slot stands for in the data of a call. -/
def Call.Data.known (d : Call.Data) (body : String) : Option String :=
  (Text.Template.field? body).bind d.field?

namespace Probe

open Json

variable {h : Harness} {d : Call.Data} {v : Json}

/-- A text with the slots of environment values filled, and then those of the data of a call. -/
def fillIn (h : Harness) (d : Call.Data) (s : String) : String := d.render (h.substitute s)

theorem text_eq (v : Json) : v.text = String.ofList (written v.parts) := by
  rw [text, written_parts]

theorem substitute_eq (h : Harness) (s : String) :
    h.substitute s = String.ofList (fill h.known s.toList) := rfl

theorem render_eq (d : Call.Data) (s : String) :
    d.render s = String.ofList (fill d.known s.toList) := rfl

theorem fillIn_eq (h : Harness) (d : Call.Data) (s : String) :
    fillIn h d s = expand d.known (expand h.known s) := rfl

theorem read?_fillIn_skeleton (hnames : StaysInside h.known v.text.toList)
    (hfields : StaysInside d.known (h.substitute v.text).toList) :
    (read? (fillIn h d v.text)).map skeleton = (read? v.text).map skeleton := by
  have hsound := sound_parts v
  rw [fillIn, render_eq]
  rw [substitute_eq, text_eq, String.toList_ofList, String.toList_ofList] at hfields ⊢
  rw [text_eq, String.toList_ofList] at hnames
  obtain ⟨ps, hps, hsubstitute⟩ := exists_written_fill hsound hnames
  rw [hsubstitute] at hfields ⊢
  obtain ⟨qs, hqs, hrender⟩ := exists_written_fill (hps.sound hsound) hfields
  rw [hrender, hqs.read?_skeleton (hps.sound hsound), hps.read?_skeleton hsound]

/-- What is read is the payload with each string filled on its own. -/
theorem read?_fillIn_strings (hnames : Tame h.known v.text.toList)
    (hfields : Tame d.known (h.substitute v.text).toList) :
    read? (fillIn h d v.text) = (read? v.text).map (mapStrings (fillIn h d)) := by
  have hsound := sound_parts v
  have hmap : Json.Part.map (expand d.known) ∘ Json.Part.map (expand h.known) =
      Json.Part.map (fillIn h d) := by
    funext p
    cases p with
    | char c => rfl
    | quoted s => exact congrArg Json.Part.quoted (fillIn_eq h d s).symm
  rw [fillIn, render_eq]
  rw [substitute_eq, text_eq, String.toList_ofList, String.toList_ofList] at hfields ⊢
  rw [text_eq, String.toList_ofList] at hnames
  rw [fill_written hsound hnames] at hfields ⊢
  rw [fill_written (hsound.map _) hfields, List.map_map, hmap,
    read?_written_map _ hsound.not_mem]

/-- **What is read of a payload whose templates are filled.** -/
theorem read?_fillIn (h : Harness) (d : Call.Data) (v : Json) :
    (StaysInside h.known v.text.toList → StaysInside d.known (h.substitute v.text).toList →
      (read? (fillIn h d v.text)).map skeleton = (read? v.text).map skeleton) ∧
    (Tame h.known v.text.toList → Tame d.known (h.substitute v.text).toList →
      read? (fillIn h d v.text) = (read? v.text).map (mapStrings (fillIn h d))) ∧
    (v.Readable 0 → read? v.text = some v) :=
  ⟨read?_fillIn_skeleton, read?_fillIn_strings, read?_text⟩

/-! ## Payloads with one name -/

/-- An environment with one name in it. -/
def named (value : String) : Harness := { env := .ofList [("x", .string value)] }

/-- The data of the first call of a worker. -/
def firstCall : Call.Data where
  workerId := "w1"
  requestNumber := 0
  method :=
    { service := ⟨"helloworld", "Greeter"⟩, name := "SayHello"
      input := ⟨"helloworld", "HelloRequest"⟩, output := ⟨"helloworld", "HelloReply"⟩
      clientStreaming := false, serverStreaming := false }
  sample := .at 0 ""

/-- A payload with a slot of either kind. -/
def greeting : Json :=
  .object [("name", .string "\x7b\x7bx\x7d\x7d"), ("from", .string "\x7b\x7b.WorkerID\x7d\x7d"),
    ("count", .int 3)]

theorem tame_greeting : Tame (named "Ada").known greeting.text.toList := by
  have hslots : slots greeting.text.toList = [['x'], ".WorkerID".toList] := by decide +kernel
  intro body hbody
  rw [hslots] at hbody
  rcases List.mem_cons.1 hbody with rfl | hbody
  · exact ⟨['x'], rfl, by decide +kernel⟩
  · obtain rfl := List.mem_singleton.1 hbody
    exact ⟨".WorkerID".toList, by decide, by decide +kernel⟩

theorem tame_greeting_filled :
    Tame firstCall.known ((named "Ada").substitute greeting.text).toList := by
  have hslots : slots ((named "Ada").substitute greeting.text).toList = [".WorkerID".toList] := by
    decide +kernel
  intro body hbody
  rw [hslots] at hbody
  obtain rfl := List.mem_singleton.1 hbody
  exact ⟨".WorkerID".toList, by decide, by decide +kernel⟩

/-- Both slots are filled, and the number is read back. -/
theorem read?_fillIn_greeting :
    read? (fillIn (named "Ada") firstCall greeting.text) =
      some (.object [("name", .string "Ada"), ("from", .string "w1"), ("count", .int 3)]) := by
  obtain ⟨-, hstrings, hread⟩ := read?_fillIn (named "Ada") firstCall greeting
  have hcount : Number.Readable (.int 3) := Number.readable_int (by decide) (by decide)
  have hreadable : greeting.Readable 0 := ⟨by decide, trivial, trivial, hcount, trivial⟩
  rw [hstrings tame_greeting tame_greeting_filled, hread hreadable, greeting, Option.map_some]
  have hkeys : ∀ key ∈ ["name", "from", "count"], fillIn (named "Ada") firstCall key = key := by
    decide +kernel
  have hname : fillIn (named "Ada") firstCall "\x7b\x7bx\x7d\x7d" = "Ada" := by decide +kernel
  have hfrom : fillIn (named "Ada") firstCall "\x7b\x7b.WorkerID\x7d\x7d" = "w1" := by
    decide +kernel
  simp only [mapStrings, mapMembers, hname, hfrom, hkeys, List.mem_cons, true_or, or_true]

/-- A payload with a slot. -/
def quoted : Json := .object [("name", .string "\x7b\x7bx\x7d\x7d")]

/-- A payload with a slot that another string begins. -/
def stray : Json :=
  .object [("first", .string "\x7b\x7b"), ("name", .string "\x7b\x7bx\x7d\x7d")]

/-- **A value with a quote leaves no document, and two braces in one string keep the slot in another
from being filled.** -/
theorem fillIn_breaks :
    read? (fillIn (named "a\"b") firstCall quoted.text) ≠
        some (quoted.mapStrings (fillIn (named "a\"b") firstCall)) ∧
      read? (fillIn (named "Ada") firstCall stray.text) ≠
        some (stray.mapStrings (fillIn (named "Ada") firstCall)) := by
  constructor
  · have hnone : (read? (fillIn (named "a\"b") firstCall quoted.text)).isNone = true := by
      decide +kernel
    intro h
    rw [h] at hnone
    cases hnone
  · have htext : fillIn (named "Ada") firstCall stray.text = stray.text := by decide +kernel
    have hreadable : stray.Readable 0 := ⟨by decide, trivial, trivial, trivial⟩
    have hname : fillIn (named "Ada") firstCall "\x7b\x7bx\x7d\x7d" = "Ada" := by decide +kernel
    rw [htext, read?_text hreadable, stray]
    intro h
    simp only [mapStrings, mapMembers, hname, Option.some.injEq, Json.object.injEq,
      List.cons.injEq, Prod.mk.injEq, Json.string.injEq] at h
    exact absurd h.2.1.2 (by decide)

end Probe

end CallCheck

import CallCheck.Proofs.Probe.Evaluations
import CallCheck.Proofs.Probe.Interrupt

/-!
# Entries of a run among themselves

Entries share a harness, and what passes from one to the next is the environment. Each entry that is
called records its own request and response, both at once, before the first of its expectations is
evaluated. An entry that does not come that far leaves the harness as it found it.

## Responses without a document

A message may have no JSON form, a date outside of the calendar for instance. Which messages have
one is decided where messages are written, and what is said here holds whatever is decided: the
writer is a parameter, a `Serializer`. `Probe.runFrom` is the run by the one that never fails
(`Serializer.runFrom_total`).

## Main statement

`entries_isolated`, for the entry at any place of a run. An entry either has its exchange recorded
(`Recorded`) or comes to an end before (`Unrecorded`); in either case it is the same whatever call
was recorded before. What a recorded exchange shows to the expressions of its entry is said by
`Shows`, side by side and from the data of the entry.
-/

namespace CallCheck.Probe

/-- How a message is written as a document, or the reason why it is not. -/
abbrev Serializer := Schema.Pool → Schema.MessageType → Message.Value → Except String Json

variable {serialize : Serializer} {s : Settings} {files : Files} {o : Surroundings} {h : Harness}
  {e : Entry} {session : Session} {report : Worker.Report Message.Value} {elapsed : Nat}
  {response : Option Json}

/-! ## Runs by a serializer -/

namespace Serializer

/-- Every message is written. -/
def total : Serializer := fun pool type message ↦ .ok (Message.toJson pool type message)

/-- The document of the last message received, if there is one. -/
def document (serialize : Serializer) (session : Session) (report : Worker.Report Message.Value) :
    Except Call.Error (Option Json) :=
  match report.outcome.response with
  | none => .ok none
  | some message =>
    let name := session.method.output.full
    match serialize session.pool (session.pool.messageType name) message with
    | .ok document => .ok (some document)
    | .error reason => .error (.invalidMessage name reason)

/-- Records the exchange of a call, and evaluates the expectations and events of its entry. -/
def settle (serialize : Serializer) (s : Settings) (h : Harness) (session : Session) (e : Entry)
    (report : Worker.Report Message.Value) (elapsed : Nat) :
    Except Failure EntryReport × Harness :=
  match serialize.document session report with
  | .error fault => (.error ⟨["failed to render response"], .call fault⟩, h)
  | .ok response =>
    let h := h.record (requestBody (e.payloads.map h.substitute)) (s.metadataOf h e) response
      report.outcome.headers
    match h.judge e with
    | (.error f, h) => (.error f, h)
    | (.ok (), h) =>
      (.ok {
        state := report.state
        sent := report.outcome.sent
        received := report.outcome.received
        response
        elapsed }, h)

/-- Calls an entry over a session, and evaluates its expectations and events. -/
def finishEntry (serialize : Serializer) (s : Settings) (o : Surroundings) (h : Harness)
    (session : Session) (e : Entry) : Except Failure EntryReport × Harness :=
  let metadata := s.metadataOf h e
  match checkHeaders metadata with
  | .error f => (.error f, h)
  | .ok () =>
    match callEntry o session e (e.payloads.map h.substitute) metadata with
    | .error fault => (.error ⟨[], .call fault⟩, h)
    | .ok (report, elapsed) => serialize.settle s h session e report elapsed

/-- Finds the method of an entry, calls it, and evaluates the expectations and events. -/
def runEntry (serialize : Serializer) (s : Settings) (files : Files) (o : Surroundings)
    (h : Harness) (e : Entry) : Except Failure EntryReport × Harness :=
  if o.interrupted then (.ok { state := .cancelled }, h)
  else
    let host := s.hostOf h e
    match Session.connect o.network files (s.config host e) with
    | .error fault => (.error ⟨[s!"resolving {e.call} on {host}"], .call fault⟩, h)
    | .ok session => serialize.finishEntry s o h session e

/-- Runs entries in order, up to the first that is interrupted. -/
def runFrom (serialize : Serializer) (s : Settings) (files : Files) (outside : Nat → Surroundings)
    (place : Nat) (h : Harness) : List Entry → List EntryOutcome × Harness
  | [] => ([], h)
  | e :: rest =>
    let (result, h) := serialize.runEntry s files (outside place) h e
    let outcome : EntryOutcome := ⟨e.name, result⟩
    if outcome.isCancelled then ([outcome], h)
    else
      let (outcomes, h) := serialize.runFrom s files outside (place + 1) h rest
      (outcome :: outcomes, h)

theorem document_total (session : Session) (report : Worker.Report Message.Value) :
    total.document session report = .ok (report.outcome.response.map
      (Message.toJson session.pool (session.pool.messageType session.method.output.full))) := by
  rw [document]
  cases report.outcome.response <;> rfl

theorem finishEntry_total (s : Settings) (o : Surroundings) (h : Harness) (session : Session)
    (e : Entry) : total.finishEntry s o h session e = Probe.finishEntry s o h session e := by
  rw [finishEntry, Probe.finishEntry]
  rcases checkHeaders (s.metadataOf h e) with f | _
  · rfl
  · rcases callEntry o session e (e.payloads.map h.substitute) (s.metadataOf h e) with
      fault | ⟨report, elapsed⟩
    · rfl
    · rcases hcheck : (h.after s session e report).check e.expect with ⟨f | _, h'⟩
      · rw [Harness.after] at hcheck
        simp only [settle, document_total, Harness.judge, hcheck]
      · rw [Harness.after] at hcheck
        rcases happly : h'.apply e.event with ⟨f | _, h''⟩ <;>
          simp only [settle, document_total, Harness.judge, hcheck, happly]

theorem runEntry_total (s : Settings) (files : Files) (o : Surroundings) (h : Harness) (e : Entry) :
    total.runEntry s files o h e = Probe.runEntry s files o h e := by
  rw [runEntry, Probe.runEntry]
  cases hconnect : Session.connect o.network files (s.config (s.hostOf h e) e) <;>
    simp only [hconnect, finishEntry_total]

/-- The run by the serializer that never fails is the run. -/
theorem runFrom_total (s : Settings) (files : Files) (outside : Nat → Surroundings) (place : Nat)
    (h : Harness) (entries : List Entry) :
    total.runFrom s files outside place h entries =
      Probe.runFrom s files outside place h entries := by
  induction entries generalizing place h with
  | nil => rfl
  | cons e rest ih =>
    rw [runFrom, Probe.runFrom, runEntry_total]
    simp only [ih]

end Serializer

/-! ## How far an entry comes -/

/-- The exchange of an entry is recorded: the entry is called, and its response has a document. -/
structure Recorded (serialize : Serializer) (s : Settings) (files : Files) (o : Surroundings)
    (h : Harness) (e : Entry) (session : Session) (report : Worker.Report Message.Value)
    (elapsed : Nat) (response : Option Json) : Prop
    extends Called s files o h e session report elapsed where
  /-- The response is written as a document. -/
  document_eq : serialize.document session report = .ok response

/-- The exchange of an entry is not recorded, and this is what is reported. -/
inductive Unrecorded (serialize : Serializer) (s : Settings) (files : Files) (o : Surroundings)
    (h : Harness) (e : Entry) : Except Failure EntryReport → Prop
  /-- The interrupt comes before there is a connection. -/
  | interrupted : o.interrupted = true →
      Unrecorded serialize s files o h e (.ok { state := .cancelled })
  /-- The method is not found, or there is no connection. -/
  | unresolved {fault : Call.Error} : o.interrupted = false →
      Session.connect o.network files (s.config (s.hostOf h e) e) = .error fault →
      Unrecorded serialize s files o h e
        (.error ⟨[s!"resolving {e.call} on {s.hostOf h e}"], .call fault⟩)
  /-- What goes along cannot be sent. -/
  | unsendable {session : Session} {f : Failure} : o.interrupted = false →
      Session.connect o.network files (s.config (s.hostOf h e) e) = .ok session →
      checkHeaders (s.metadataOf h e) = .error f →
      Unrecorded serialize s files o h e (.error f)
  /-- The call fails. -/
  | failed {session : Session} {fault : Call.Error} : o.interrupted = false →
      Session.connect o.network files (s.config (s.hostOf h e) e) = .ok session →
      checkHeaders (s.metadataOf h e) = .ok () →
      callEntry o session e (e.payloads.map h.substitute) (s.metadataOf h e) = .error fault →
      Unrecorded serialize s files o h e (.error ⟨[], .call fault⟩)
  /-- The response has no document. -/
  | unwritten {session : Session} {report : Worker.Report Message.Value} {elapsed : Nat}
      {fault : Call.Error} : Called s files o h e session report elapsed →
      serialize.document session report = .error fault →
      Unrecorded serialize s files o h e (.error ⟨["failed to render response"], .call fault⟩)

theorem recorded_or_unrecorded (serialize : Serializer) (s : Settings) (files : Files)
    (o : Surroundings) (h : Harness) (e : Entry) :
    (∃ session report elapsed response,
        Recorded serialize s files o h e session report elapsed response) ∨
      ∃ r, Unrecorded serialize s files o h e r := by
  cases hinterrupted : o.interrupted with
  | true => exact .inr ⟨_, .interrupted hinterrupted⟩
  | false =>
    cases hconnect : Session.connect o.network files (s.config (s.hostOf h e) e) with
    | error fault => exact .inr ⟨_, .unresolved hinterrupted hconnect⟩
    | ok session =>
      cases hheaders : checkHeaders (s.metadataOf h e) with
      | error f => exact .inr ⟨_, .unsendable hinterrupted hconnect hheaders⟩
      | ok =>
        cases hcall : callEntry o session e (e.payloads.map h.substitute) (s.metadataOf h e) with
        | error fault => exact .inr ⟨_, .failed hinterrupted hconnect hheaders hcall⟩
        | ok called =>
          have hcalled : Called s files o h e session called.1 called.2 :=
            ⟨hinterrupted, hconnect, hheaders, hcall⟩
          cases hresponse : serialize.document session called.1 with
          | error fault => exact .inr ⟨_, .unwritten hcalled hresponse⟩
          | ok response => exact .inl ⟨_, _, _, _, hcalled, hresponse⟩

theorem Serializer.runEntry_of_connect (serialize : Serializer)
    (hinterrupted : o.interrupted = false)
    (hconnect : Session.connect o.network files (s.config (s.hostOf h e) e) = .ok session) :
    serialize.runEntry s files o h e = serialize.finishEntry s o h session e := by
  rw [runEntry, hinterrupted, if_neg Bool.false_ne_true]
  dsimp only
  rw [hconnect]

theorem Called.runEntry_eq_settle (hcalled : Called s files o h e session report elapsed) :
    serialize.runEntry s files o h e = serialize.settle s h session e report elapsed := by
  rw [serialize.runEntry_of_connect hcalled.interrupted hcalled.connect, Serializer.finishEntry,
    hcalled.headers, hcalled.call]

/-- An entry whose exchange is not recorded leaves the harness as it is. -/
theorem Unrecorded.runEntry_eq {r : Except Failure EntryReport}
    (hunrecorded : Unrecorded serialize s files o h e r) :
    serialize.runEntry s files o h e = (r, h) := by
  cases hunrecorded with
  | interrupted hinterrupted => rw [Serializer.runEntry, if_pos hinterrupted]
  | unresolved hinterrupted hconnect =>
    rw [Serializer.runEntry, hinterrupted, if_neg Bool.false_ne_true]
    dsimp only
    rw [hconnect]
  | unsendable hinterrupted hconnect hheaders =>
    rw [serialize.runEntry_of_connect hinterrupted hconnect, Serializer.finishEntry, hheaders]
  | failed hinterrupted hconnect hheaders hcall =>
    rw [serialize.runEntry_of_connect hinterrupted hconnect, Serializer.finishEntry, hheaders,
      hcall]
  | unwritten hcalled hresponse => rw [hcalled.runEntry_eq_settle, Serializer.settle, hresponse]

theorem exists_unrecorded_of_unreachable (hinterrupted : o.interrupted = false)
    (hdown : ∀ host t peer, o.network host t ≠ .connected peer) :
    ∃ f, Unrecorded serialize s files o h e (.error f) := by
  cases hconnect : Session.connect o.network files (s.config (s.hostOf h e) e) with
  | error fault => exact ⟨_, .unresolved hinterrupted hconnect⟩
  | ok session =>
    obtain ⟨host, t, hpeer⟩ := Session.connect_eq_ok hconnect
    exact absurd hpeer (hdown host t _)

/-! ## What the expressions of an entry see -/

namespace Harness

/-- What the expressions of an entry see first: the environment as it was when the entry was called,
what the entry sent, and what was reported of its call. -/
def shown (h : Harness) (s : Settings) (e : Entry) (report : Worker.Report Message.Value)
    (response : Option Json) : Harness :=
  h.record (requestBody (e.payloads.map h.substitute)) (s.metadataOf h e) response
    report.outcome.headers

/-- The evaluations by which an entry is judged: those of its expectations and, if these are met,
those of its events. -/
def evaluationsOf (h : Harness) (e : Entry) : List Evaluation :=
  h.evaluations isUnmet e.expect ++
    match h.check e.expect with
    | (.error _, _) => []
    | (.ok (), h) => h.evaluations (fun _ ↦ false) e.event

theorem leads_judge (h : Harness) (e : Entry) : Leads h (h.evaluationsOf e) (h.judge e).2 := by
  obtain ⟨hchecked, -⟩ := h.leads_check e.expect
  rw [evaluationsOf, judge]
  rcases hcheck : h.check e.expect with ⟨f | _, h'⟩
  · rw [hcheck] at hchecked
    exact hchecked.append .nil
  · rw [hcheck] at hchecked
    exact hchecked.append (h'.leads_apply e.event).1

theorem sources_evaluationsOf (h : Harness) (e : Entry) :
    (h.evaluationsOf e).map Evaluation.source <+: e.expect ++ e.event ∧
      ((h.judge e).1 = .ok () →
        (h.evaluationsOf e).map Evaluation.source = e.expect ++ e.event) := by
  obtain ⟨-, hall⟩ := h.leads_check e.expect
  rw [evaluationsOf, judge, List.map_append]
  rcases hcheck : h.check e.expect with ⟨f | _, h'⟩
  · have hsome := sources_evaluations isUnmet h e.expect
    rw [List.map_nil, List.append_nil]
    refine ⟨hsome.trans (List.prefix_append _ _), fun hok ↦ ?_⟩
    cases hok
  · rw [hcheck] at hall
    rw [hall rfl]
    refine ⟨(List.prefix_append_right_inj _).2 (sources_evaluations _ h' e.event), fun hok ↦ ?_⟩
    rw [(h'.leads_apply e.event).2 hok]

end Harness

theorem requestBody_map (fill : String → String) (payloads : List String) :
    requestBody (payloads.map fill) =
      match payloads with
      | [payload] => fill payload
      | payloads => "[" ++ ",".intercalate (payloads.map fill) ++ "]" := by
  rcases payloads with _ | ⟨payload, _ | ⟨next, rest⟩⟩ <;> rfl

theorem metadataOf_eq_append (s : Settings) (h : Harness) (e : Entry) :
    s.metadataOf h e = (s.metadata.map fun (key, value) ↦ (key, h.substitute value)) ++
      e.metadata.map fun (key, value) ↦ (Text.asciiLower key, h.substitute value) := by
  rw [Settings.metadataOf, List.map_append, List.map_map]
  rfl

/-- The two sides of a call are there, and they are those of an entry: what it sent, with its slots
filled, and what was reported of its call. -/
structure Shows (s : Settings) (fill : String → String) (e : Entry)
    (report : Worker.Report Message.Value) (response : Option Json) (sides : Expr.Exchanges) :
    Prop where
  /-- The payload, or an array of them if there is not just one, with the metadata of the run and of
  the entry. -/
  request : sides.request = some {
    body := Text.Utf8.encode <| match e.payloads with
      | [payload] => fill payload
      | payloads => "[" ++ ",".intercalate (payloads.map fill) ++ "]"
    headers := (s.metadata.map fun (key, value) ↦ (key, fill value)) ++
      e.metadata.map fun (key, value) ↦ (Text.asciiLower key, fill value) }
  /-- The document of the last message received, if there is one, with the headers of the answer
  that are text. -/
  response : sides.response = some {
    body := Text.Utf8.encode <| match response with
      | some document => document.text
      | none => ""
    headers := report.outcome.headers.filter fun (key, value) ↦
      !"-bin".toList.isSuffixOf key.toList && value.toList.all Harness.isVisible }

theorem shows_shown (s : Settings) (found : Harness) (e : Entry)
    (report : Worker.Report Message.Value) (response : Option Json) :
    Shows s (Text.Template.fillNames fun name ↦ (found.env.get? name).map Expr.Value.text) e report
      response (found.shown s e report response).sides where
  request := by
    rw [← Harness.substitute, ← requestBody_map, ← metadataOf_eq_append]
    rfl
  response := by
    cases response with
    | none => rfl
    | some document => rfl

/-- An entry is judged by what its expressions see, and they see one call. -/
structure Judged (shown : Harness) (e : Entry) (run : Except Failure EntryReport × Harness) :
    Prop where
  /-- The entry fails with what its expectations and events fail with. -/
  result : run.1.map (fun _ ↦ ()) = (shown.judge e).1
  /-- The evaluations lead from what is seen first to what the entry leaves. -/
  leads : Leads shown (shown.evaluationsOf e) run.2
  /-- The expectations are evaluated in order, and then the events. -/
  sources : (shown.evaluationsOf e).map Evaluation.source <+: e.expect ++ e.event
  /-- All of them are evaluated if the entry does not fail. -/
  complete : (∃ r, run.1 = .ok r) →
    (shown.evaluationsOf e).map Evaluation.source = e.expect ++ e.event
  /-- Every evaluation sees the call that is seen first. -/
  sides_eq : ∀ ev ∈ shown.evaluationsOf e, ev.harness.sides = shown.sides
  /-- That call stays to be seen. -/
  sides_left : run.2.sides = shown.sides

theorem Judged.eq_error {shown : Harness} {run : Except Failure EntryReport × Harness} {f : Failure}
    (hjudged : Judged shown e run) (hf : (shown.judge e).1 = .error f) : run.1 = .error f := by
  have hresult := hjudged.result.trans hf
  cases hrun : run.1 with
  | ok r =>
    rw [hrun] at hresult
    cases hresult
  | error f' =>
    rw [hrun] at hresult
    cases hresult
    rfl

namespace Recorded

theorem runEntry_eq
    (hrecorded : Recorded serialize s files o h e session report elapsed response) :
    serialize.runEntry s files o h e =
      (((h.shown s e report response).judge e).1.map fun _ ↦ {
          state := report.state
          sent := report.outcome.sent
          received := report.outcome.received
          response
          elapsed },
        ((h.shown s e report response).judge e).2) := by
  rw [hrecorded.runEntry_eq_settle, Serializer.settle, hrecorded.document_eq]
  dsimp only
  rw [Harness.shown]
  rcases Harness.judge _ e with ⟨f | _, h''⟩ <;> rfl

theorem judged (hrecorded : Recorded serialize s files o h e session report elapsed response) :
    Judged (h.shown s e report response) e (serialize.runEntry s files o h e) := by
  have hleads := (h.shown s e report response).leads_judge e
  obtain ⟨hsides, hleft⟩ := hleads.sides_eq
  obtain ⟨hsources, hall⟩ := (h.shown s e report response).sources_evaluationsOf e
  rw [hrecorded.runEntry_eq]
  refine ⟨?_, hleads, hsources, ?_, hsides, hleft⟩
  · cases ((h.shown s e report response).judge e).1 <;> rfl
  · rintro ⟨r, hr⟩
    obtain ⟨u, hu, -⟩ := map_eq_ok_iff.1 hr
    exact hall hu

end Recorded

/-! ## The call that was recorded before -/

theorem Called.of_sides (hcalled : Called s files o h e session report elapsed)
    (sides : Expr.Exchanges) :
    Called s files o { h with sides } e session report elapsed :=
  ⟨hcalled.interrupted, hcalled.connect, hcalled.headers, hcalled.call⟩

theorem Unrecorded.of_sides {r : Except Failure EntryReport}
    (hunrecorded : Unrecorded serialize s files o h e r) (sides : Expr.Exchanges) :
    Unrecorded serialize s files o { h with sides } e r := by
  cases hunrecorded with
  | interrupted hinterrupted => exact .interrupted hinterrupted
  | unresolved hinterrupted hconnect => exact .unresolved hinterrupted hconnect
  | unsendable hinterrupted hconnect hheaders => exact .unsendable hinterrupted hconnect hheaders
  | failed hinterrupted hconnect hheaders hcall =>
    exact .failed hinterrupted hconnect hheaders hcall
  | unwritten hcalled hresponse => exact .unwritten (hcalled.of_sides sides) hresponse

/-- What comes of an entry does not depend on the call that was recorded before it. -/
theorem runEntry_of_sides (serialize : Serializer) (s : Settings) (files : Files)
    (o : Surroundings) (h : Harness) (e : Entry) (sides : Expr.Exchanges) :
    (serialize.runEntry s files o { h with sides } e).1 = (serialize.runEntry s files o h e).1 ∧
      (serialize.runEntry s files o { h with sides } e).2.env =
        (serialize.runEntry s files o h e).2.env := by
  obtain ⟨session, report, elapsed, response, hrecorded⟩ | ⟨r, hunrecorded⟩ :=
    recorded_or_unrecorded serialize s files o h e
  · have hother : Recorded serialize s files o { h with sides } e session report elapsed response :=
      ⟨hrecorded.of_sides sides, hrecorded.document_eq⟩
    rw [hrecorded.runEntry_eq, hother.runEntry_eq]
    exact ⟨rfl, rfl⟩
  · rw [hunrecorded.runEntry_eq, (hunrecorded.of_sides sides).runEntry_eq]
    exact ⟨rfl, rfl⟩

/-! ## All entries -/

variable {outside : Nat → Surroundings} {place : Nat}

/-- **Step lemma.** The first entry is reported, and the run goes on with what its expressions
leave unless it is cancelled. -/
theorem Serializer.runFrom_cons (serialize : Serializer) (e : Entry) (rest : List Entry) :
    let found := serialize.runEntry s files (outside place) h e
    let outcome : EntryOutcome := ⟨e.name, found.1⟩
    let later := serialize.runFrom s files outside (place + 1) found.2 rest
    serialize.runFrom s files outside place h (e :: rest) =
      if outcome.isCancelled then ([outcome], found.2) else (outcome :: later.1, later.2) := by
  rw [runFrom]

theorem Serializer.one_lt_length_of_error {f : Failure} {h' : Harness}
    (hrun : serialize.runEntry s files (outside place) h e = (.error f, h')) (next : Entry)
    (rest : List Entry) :
    1 < (serialize.runFrom s files outside place h (e :: next :: rest)).1.length := by
  have hnot : (EntryOutcome.mk e.name (.error f)).isCancelled = false := rfl
  rw [runFrom_cons, hrun, hnot, if_neg Bool.false_ne_true, runFrom_cons]
  split <;> simp

/-- **Run lemma.** An entry that is reported starts from what the entries before it have left, and
the entries after it start from what it has left. -/
theorem Serializer.runFrom_at (serialize : Serializer) (s : Settings) (files : Files)
    {entries : List Entry} {n : Nat} (he : entries[n]? = some e)
    (hn : n < (serialize.runFrom s files outside place h entries).1.length) :
    let found := (serialize.runFrom s files outside place h (entries.take n)).2
    let run := serialize.runEntry s files (outside (place + n)) found e
    (serialize.runFrom s files outside place h entries).1[n]? = some ⟨e.name, run.1⟩ ∧
      (serialize.runFrom s files outside place h (entries.take (n + 1))).2 = run.2 := by
  induction entries generalizing place h n with
  | nil => cases he
  | cons first rest ih =>
    rw [runFrom_cons] at hn ⊢
    rw [List.take_succ_cons, runFrom_cons]
    cases n with
    | zero =>
      obtain rfl := Option.some.inj he
      split
      · exact ⟨rfl, rfl⟩
      · exact ⟨rfl, rfl⟩
    | succ n =>
      split at hn
      · exact absurd (Nat.lt_of_succ_lt_succ hn) (Nat.not_lt_zero n)
      · rename_i hnot
        obtain ⟨hget, hleft⟩ := ih he (Nat.lt_of_succ_lt_succ hn)
        have hplace : place + (n + 1) = place + 1 + n := by omega
        rw [List.take_succ_cons, runFrom_cons, if_neg hnot, if_neg hnot, if_neg hnot, hplace]
        exact ⟨hget, hleft⟩

/-- **Entries are isolated from one another.** Whatever responses have a document, whatever the
entries meet outside and whatever is found at the start, take the entry at any place of a run.

If the run comes to it, then it starts from what the entries before it have left, and leaves what
the entries after it start from, however it ends. Its result and the environment that it leaves do
not depend on the call that was recorded before it. Either its exchange is recorded or it is not.
If it is not, then the harness stays as it is. If it is, then every evaluation of an expectation or
an event of the entry sees this exchange, both its sides, and no other: the payloads and the
metadata of the entry, with their slots filled from the environment that it started from, and the
response to them. -/
theorem entries_isolated (serialize : Serializer) (s : Settings) (files : Files)
    (outside : Nat → Surroundings) (h : Harness) (entries : List Entry) :
    Serializer.total.runFrom s files outside 0 h entries = runFrom s files outside 0 h entries ∧
    ∀ place e, entries[place]? = some e →
      let outcomes := (serialize.runFrom s files outside 0 h entries).1
      let found := (serialize.runFrom s files outside 0 h (entries.take place)).2
      let o := outside place
      let run := serialize.runEntry s files o found e
      (place < outcomes.length → outcomes[place]? = some ⟨e.name, run.1⟩ ∧
        (serialize.runFrom s files outside 0 h (entries.take (place + 1))).2 = run.2) ∧
      (∀ sides, (serialize.runEntry s files o { found with sides } e).1 = run.1 ∧
        (serialize.runEntry s files o { found with sides } e).2.env = run.2.env) ∧
      ((∃ session report elapsed response,
          Recorded serialize s files o found e session report elapsed response) ∨
        ∃ r, Unrecorded serialize s files o found e r) ∧
      (∀ r, Unrecorded serialize s files o found e r → run = (r, found)) ∧
      ∀ session report elapsed response,
        Recorded serialize s files o found e session report elapsed response →
        let shown := found.shown s e report response
        let fill := Text.Template.fillNames fun name ↦ (found.env.get? name).map Expr.Value.text
        shown.env = found.env ∧ Shows s fill e report response shown.sides ∧ Judged shown e run ∧
          ∀ ev ∈ shown.evaluationsOf e, Shows s fill e report response ev.harness.sides := by
  refine ⟨Serializer.runFrom_total s files outside 0 h entries, ?_⟩
  intro place e he outcomes found o run
  refine ⟨fun hplace ↦ ?_, runEntry_of_sides serialize s files o found e,
    recorded_or_unrecorded serialize s files o found e, fun r hr ↦ hr.runEntry_eq, ?_⟩
  · have hat := serialize.runFrom_at s files he hplace
    rwa [Nat.zero_add] at hat
  · intro session report elapsed response hrecorded shown fill
    have hshows : Shows s fill e report response shown.sides :=
      shows_shown s found e report response
    refine ⟨rfl, hshows, hrecorded.judged, fun ev hev ↦ ?_⟩
    rwa [hrecorded.judged.sides_eq ev hev]

theorem judge_unmet (h : Harness) :
    h.judge (endless ["@contain(\"\", \"a\")"]) =
      (.error (.note "expectation `@contain(\"\", \"a\")` does not hold"), h) := by
  rw [Harness.judge, endless, check_unmet]

/-- The Greeter cannot be reached for the first of two entries, which leaves no trace. The second is
called, and its one expectation sees its own exchange and fails. -/
theorem entries_isolated_endless :
    let second := endless ["@contain(\"\", \"a\")"]
    (Serializer.total.runFrom greeterSettings greeterFiles (stoppedAt 1) 0 {} [single]).2 = {} ∧
      ∃ session report elapsed response,
        Recorded .total greeterSettings greeterFiles (stoppedAt 1 1) {} second session report
            elapsed response ∧
          (∃ ev ∈
              (({} : Harness).shown greeterSettings second report response).evaluationsOf second,
            Shows greeterSettings
              (Text.Template.fillNames fun name ↦ (Expr.Env.get? {} name).map Expr.Value.text)
              second report response ev.harness.sides) ∧
          Judged (({} : Harness).shown greeterSettings second report response) second
            (Serializer.total.runEntry greeterSettings greeterFiles (stoppedAt 1 1) {} second) ∧
          (Serializer.total.runFrom greeterSettings greeterFiles (stoppedAt 1) 0 {}
            [single, second]).1[1]? = some ⟨"endless",
              .error (.note "expectation `@contain(\"\", \"a\")` does not hold")⟩ := by
  intro second
  obtain ⟨-, hplaces⟩ := entries_isolated .total greeterSettings greeterFiles (stoppedAt 1) {}
    [single, second]
  obtain ⟨hsingle, -, -, hfirst, -⟩ := hplaces 0 single rfl
  obtain ⟨hendless, -, -, -, hsecond⟩ := hplaces 1 second rfl
  have hstart : (Serializer.total.runFrom greeterSettings greeterFiles (stoppedAt 1) 0 {}
      (List.take 0 [single, second])).2 = {} := rfl
  have htake : List.take 1 [single, second] = [single] := rfl
  rw [hstart] at hsingle hfirst
  obtain ⟨f, hunrecorded⟩ : ∃ f, Unrecorded .total greeterSettings greeterFiles (stoppedAt 1 0) {}
      single (.error f) :=
    exists_unrecorded_of_unreachable rfl fun host t peer hpeer ↦ by cases hpeer
  have hdown := hfirst _ hunrecorded
  have hlength := Serializer.one_lt_length_of_error hdown second []
  obtain ⟨-, hfound⟩ := hsingle (Nat.zero_lt_of_lt hlength)
  rw [htake, hdown] at hfound
  obtain ⟨session, report, elapsed, hcalled, -⟩ := exists_called_endless ["@contain(\"\", \"a\")"]
  rw [← stoppedAt_self 1] at hcalled
  have hrecorded : Recorded .total greeterSettings greeterFiles (stoppedAt 1 1) {} second session
      report elapsed _ := ⟨hcalled, Serializer.document_total session report⟩
  obtain ⟨hreported, -⟩ := hendless hlength
  rw [htake, hfound] at hreported hsecond
  obtain ⟨-, -, hjudged, hshows⟩ := hsecond session report elapsed _ hrecorded
  refine ⟨hfound, session, report, elapsed, _, hrecorded,
    ⟨_, List.mem_cons_self, hshows _ List.mem_cons_self⟩, hjudged, ?_⟩
  rw [hjudged.eq_error (congrArg Prod.fst (judge_unmet _))] at hreported
  exact hreported

end CallCheck.Probe

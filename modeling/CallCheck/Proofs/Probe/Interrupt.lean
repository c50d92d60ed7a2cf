import CallCheck.Greeter.Peer
import CallCheck.Probe.Run
import CallCheck.Proofs.Except
import CallCheck.Proofs.Expr.Parsing

/-!
# Interrupted runs

The interrupt comes once and stays. It finds the run at some entry: the entries before it have not
met it, and the entries after it meet it before they have a connection.

## Main statement

`runAll_interrupted` says what is reported then. An entry that meets the interrupt before it has a
connection is cancelled, and nothing else happens. An entry whose call the interrupt ends is
cancelled if its expectations and events allow it; if they do not, it fails with what they say, and
the next entry is cancelled in its place. No entry after a cancelled one is reported.
-/

namespace CallCheck

/-! ## Where a session comes from -/

namespace Session

variable {network : Network} {files : Files} {config : Config}

theorem Connection.establish_eq_ok {host : String} {t : Transport} {connection : Connection}
    (h : Connection.establish network host t = .ok connection) :
    network host t = .connected connection.peer := by
  rw [Connection.establish] at h
  split at h
  · cases h
  · rw [Connection.dial] at h
    split at h
    · rename_i peer hdial
      obtain rfl := Except.ok.inj h
      exact hdial
    · cases h
    · cases h

theorem prepare_eq_ok {t : Call.Target} {connection : Connection} {pool : Schema.Pool}
    (h : prepare network files config t = .ok (connection, pool)) :
    Connection.establish network config.host config.transport = .ok connection := by
  rw [prepare] at h
  split at h
  · obtain ⟨connection', hconnection, h⟩ := bind_eq_ok_iff.1 h
    obtain ⟨pool', -, h⟩ := bind_eq_ok_iff.1 h
    obtain ⟨rfl, -⟩ := Prod.mk.inj (Except.ok.inj h)
    exact hconnection
  · obtain ⟨pool', -, h⟩ := bind_eq_ok_iff.1 h
    obtain ⟨connection', hconnection, h⟩ := bind_eq_ok_iff.1 h
    obtain ⟨rfl, -⟩ := Prod.mk.inj (Except.ok.inj h)
    exact hconnection

theorem connect_eq_ok {session : Session} (h : connect network files config = .ok session) :
    ∃ host t, network host t = .connected session.connection.peer := by
  obtain ⟨t, -, h⟩ := bind_eq_ok_iff.1 h
  obtain ⟨⟨connection, pool⟩, hprepare, h⟩ := bind_eq_ok_iff.1 h
  obtain ⟨method, -, h⟩ := bind_eq_ok_iff.1 h
  obtain rfl := Except.ok.inj h
  exact ⟨_, _, Connection.establish_eq_ok (prepare_eq_ok hprepare)⟩

end Session

namespace Probe

open Session (Metadata)
open Worker (State)

variable {s : Settings} {files : Files} {o : Surroundings} {h : Harness} {session : Session}
  {e : Entry} {report : Worker.Report Message.Value} {elapsed : Nat}

/-! ## One entry -/

/-- What the expectations and then the events of an entry come to. -/
def Harness.judge (h : Harness) (e : Entry) : Except Failure Unit × Harness :=
  match h.check e.expect with
  | (.error f, h) => (.error f, h)
  | (.ok (), h) => h.apply e.event

/-- What the expressions of an entry see after its call. -/
def Harness.after (h : Harness) (s : Settings) (session : Session) (e : Entry)
    (report : Worker.Report Message.Value) : Harness :=
  h.record (requestBody (e.payloads.map h.substitute)) (s.metadataOf h e)
    (report.outcome.response.map
      (Message.toJson session.pool (session.pool.messageType session.method.output.full)))
    report.outcome.headers

/-- An entry gets as far as a call, and the worker reports of it. -/
structure Called (s : Settings) (files : Files) (o : Surroundings) (h : Harness) (e : Entry)
    (session : Session) (report : Worker.Report Message.Value) (elapsed : Nat) : Prop where
  /-- The interrupt does not come before there is a connection. -/
  interrupted : o.interrupted = false
  /-- The method is found. -/
  connect : Session.connect o.network files (s.config (s.hostOf h e) e) = .ok session
  /-- What goes along can be sent. -/
  headers : checkHeaders (s.metadataOf h e) = .ok ()
  /-- The call is made. -/
  call : callEntry o session e (e.payloads.map h.substitute) (s.metadataOf h e) =
    .ok (report, elapsed)

theorem state_of_finish {w : Worker} {ending : Session.Ending}
    (h : ((if ending.stopped then w.start.stop.2 else w.start).finish ending.result).1.map
      (·, ending.elapsed) = .ok (report, elapsed)) :
    report.state = if ending.stopped then .cancelled else .completed := by
  obtain ⟨stopped, result, took⟩ := ending
  cases result with
  | error fault => cases h
  | ok outcome =>
    obtain ⟨rfl, -⟩ := Prod.mk.inj (Except.ok.inj h)
    cases stopped <;> rfl

theorem callEntry_state {payloads : List String} {metadata : Metadata}
    (hcall : callEntry o session e payloads metadata = .ok (report, elapsed)) :
    ∃ request, report.state =
      if (session.connection.peer.answer request).stopped then .cancelled else .completed :=
  ⟨_, state_of_finish hcall⟩

/-- An entry that has been called is judged by what it sees. -/
theorem Called.runEntry_eq (hcalled : Called s files o h e session report elapsed) :
    runEntry s files o h e =
      (((h.after s session e report).judge e).1.map fun _ ↦ {
          state := report.state
          sent := report.outcome.sent
          received := report.outcome.received
          response := report.outcome.response.map
            (Message.toJson session.pool (session.pool.messageType session.method.output.full))
          elapsed },
        ((h.after s session e report).judge e).2) := by
  rw [runEntry, hcalled.interrupted, if_neg Bool.false_ne_true]
  dsimp only
  rw [hcalled.connect]
  dsimp only
  rw [finishEntry]
  dsimp only
  rw [hcalled.headers, hcalled.call]
  dsimp only
  rw [Harness.judge, Harness.after]
  cases hcheck : Harness.check _ e.expect with
  | mk checked h' =>
    cases checked with
    | error f => rfl
    | ok =>
      dsimp only
      cases happly : h'.apply e.event with
      | mk applied h'' => cases applied <;> rfl

/-- An entry is cancelled only by the interrupt or by a stop of its call. -/
theorem exists_called_of_cancelled {r : EntryReport} {h' : Harness}
    (hinterrupted : o.interrupted = false) (hrun : runEntry s files o h e = (.ok r, h')) :
    ∃ session report elapsed, Called s files o h e session report elapsed ∧
      r.state = report.state := by
  have hrun' := hrun
  rw [runEntry, hinterrupted, if_neg Bool.false_ne_true] at hrun
  dsimp only at hrun
  cases hconnect : Session.connect o.network files (s.config (s.hostOf h e) e) with
  | error fault =>
    rw [hconnect] at hrun
    cases hrun
  | ok session =>
    rw [hconnect] at hrun
    dsimp only at hrun
    rw [finishEntry] at hrun
    dsimp only at hrun
    cases hheaders : checkHeaders (s.metadataOf h e) with
    | error f =>
      rw [hheaders] at hrun
      cases hrun
    | ok =>
      rw [hheaders] at hrun
      dsimp only at hrun
      cases hcall : callEntry o session e (e.payloads.map h.substitute) (s.metadataOf h e) with
      | error fault =>
        rw [hcall] at hrun
        cases hrun
      | ok reported =>
        obtain ⟨report, elapsed⟩ := reported
        have hcalled : Called s files o h e session report elapsed :=
          ⟨hinterrupted, hconnect, hheaders, hcall⟩
        rw [hcalled.runEntry_eq] at hrun'
        obtain ⟨hresult, -⟩ := Prod.mk.inj hrun'
        obtain ⟨u, -, rfl⟩ := map_eq_ok_iff.1 hresult
        exact ⟨session, report, elapsed, hcalled, rfl⟩

theorem runEntry_of_unreachable (h : Harness) (e : Entry)
    (hdown : ∀ host t peer, o.network host t ≠ .connected peer) :
    (runEntry s files o h e).2 = h := by
  rw [runEntry]
  split
  · rfl
  · dsimp only
    cases hconnect : Session.connect o.network files (s.config (s.hostOf h e) e) with
    | error fault => rfl
    | ok session =>
      obtain ⟨host, t, hpeer⟩ := Session.connect_eq_ok hconnect
      exact absurd hpeer (hdown host t _)

/-! ## Entries without the interrupt, and with it -/

/-- An entry does not meet the interrupt: it does not come before there is a connection, and no
call is stopped, to which only the interrupt leads. -/
structure Surroundings.Quiet (o : Surroundings) : Prop where
  interrupted : o.interrupted = false
  stopped : ∀ host t peer, o.network host t = .connected peer →
    ∀ request, (peer.answer request).stopped = false

theorem Surroundings.Quiet.not_cancelled (hquiet : o.Quiet) (h : Harness) (e : Entry) :
    (EntryOutcome.mk e.name (runEntry s files o h e).1).isCancelled = false := by
  cases hrun : runEntry s files o h e with
  | mk result h' =>
    cases result with
    | error f => rfl
    | ok r =>
      obtain ⟨session, report, elapsed, hcalled, hstate⟩ :=
        exists_called_of_cancelled hquiet.interrupted hrun
      obtain ⟨request, hreport⟩ := callEntry_state hcalled.call
      obtain ⟨host, t, hpeer⟩ := Session.connect_eq_ok hcalled.connect
      rw [hquiet.stopped host t _ hpeer request, if_neg Bool.false_ne_true] at hreport
      rw [hreport] at hstate
      rw [EntryOutcome.isCancelled]
      obtain ⟨state, sent, received, response, took⟩ := r
      obtain rfl : state = .completed := hstate
      rfl

/-! ## All entries -/

/-- What is reported of an entry that meets the interrupt before it has a connection. -/
def skipped (e : Entry) : EntryOutcome := ⟨e.name, .ok { state := .cancelled }⟩

variable {outside : Nat → Surroundings} {place : Nat}

/-- Whatever the network is, an entry that meets the interrupt before it has a connection is
cancelled without a call, and what expressions see stays as it is. -/
theorem runEntry_interrupted (hinterrupted : o.interrupted = true) (network : Session.Network) :
    runEntry s files { o with network } h e = (.ok { state := .cancelled }, h) := by
  rw [runEntry, if_pos hinterrupted]

theorem runFrom_interrupted (hinterrupted : (outside place).interrupted = true)
    (entries : List Entry) :
    runFrom s files outside place h entries = ((entries.head?.map skipped).toList, h) := by
  cases entries with
  | nil => rfl
  | cons e rest => rw [runFrom, runEntry_interrupted hinterrupted]; rfl

/-- **Step lemma.** The first entry is reported, and the run goes on with what its expressions
leave unless it is cancelled. -/
theorem runFrom_cons (e : Entry) (rest : List Entry) :
    let found := runEntry s files (outside place) h e
    let outcome : EntryOutcome := ⟨e.name, found.1⟩
    let later := runFrom s files outside (place + 1) found.2 rest
    runFrom s files outside place h (e :: rest) =
      if outcome.isCancelled then ([outcome], found.2) else (outcome :: later.1, later.2) := by
  rw [runFrom]

/-- **Run lemma.** Entries that do not meet the interrupt are all reported, none of them as
cancelled, and the run goes on with the others. -/
theorem runFrom_append_of_quiet (s : Settings) (files : Files) (h : Harness)
    (hquiet : ∀ n < entries.length, (outside (place + n)).Quiet) (rest : List Entry) :
    (runFrom s files outside place h entries).1.map EntryOutcome.name = entries.map Entry.name ∧
      (∀ outcome ∈ (runFrom s files outside place h entries).1, outcome.isCancelled = false) ∧
      runFrom s files outside place h (entries ++ rest) =
        ((runFrom s files outside place h entries).1 ++
            (runFrom s files outside (place + entries.length)
              (runFrom s files outside place h entries).2 rest).1,
          (runFrom s files outside (place + entries.length)
            (runFrom s files outside place h entries).2 rest).2) := by
  induction entries generalizing place h with
  | nil => exact ⟨rfl, fun _ hmem ↦ absurd hmem List.not_mem_nil, rfl⟩
  | cons e entries ih =>
    have hnot : (EntryOutcome.mk e.name (runEntry s files (outside place) h e).1).isCancelled =
        false := (hquiet 0 (Nat.succ_pos _)).not_cancelled h e
    have hlater (n : Nat) (hn : n < entries.length) : (outside (place + 1 + n)).Quiet := by
      have hlater := hquiet (n + 1) (Nat.succ_lt_succ hn)
      rwa [Nat.add_comm n 1, ← Nat.add_assoc] at hlater
    obtain ⟨hnames, hcancelled, happend⟩ := ih (runEntry s files (outside place) h e).2 hlater
    rw [List.cons_append, runFrom_cons, runFrom_cons, hnot, if_neg Bool.false_ne_true,
      if_neg Bool.false_ne_true, happend, List.length_cons, Nat.add_comm entries.length 1,
      ← Nat.add_assoc]
    refine ⟨congrArg (e.name :: ·) hnames, fun outcome hmem ↦ ?_, rfl⟩
    rcases List.mem_cons.1 hmem with rfl | hmem
    · exact hnot
    · exact hcancelled outcome hmem

/-- The interrupt finds a run at the entry at a place. It may come before that entry has a
connection, during its call, or later. -/
structure InterruptedAt (outside : Nat → Surroundings) (place : Nat) : Prop where
  before : ∀ n < place, (outside n).Quiet
  after : ∀ n, place < n → (outside n).interrupted = true

/-- **What an interrupted run reports.** The entries before the one that the interrupt finds are
all reported, and none of them is cancelled. If the interrupt comes before the entry has a
connection, then the entry is cancelled without a call. If the interrupt ends its call, then the
entry is cancelled unless an expectation or an event fails, and fails with that otherwise. After a
cancelled entry nothing more is reported, and after another one only the next entry, as cancelled
without a call. -/
theorem runAll_interrupted (s : Settings) (files : Files) {entries : List Entry}
    (he : entries[place]? = some e) (hinterrupt : InterruptedAt outside place) :
    let before := runFrom s files outside 0 {} (entries.take place)
    let found := runEntry s files (outside place) before.2 e
    let outcome : EntryOutcome := ⟨e.name, found.1⟩
    (before.1.map EntryOutcome.name = (entries.take place).map Entry.name ∧
      ∀ outcome ∈ before.1, outcome.isCancelled = false) ∧
    runAll s files outside entries =
      (before.1 ++ outcome ::
        (if outcome.isCancelled then [] else (entries[place + 1]?.map skipped).toList), found.2) ∧
    ((outside place).interrupted = true → ∀ network,
      runEntry s files { outside place with network } before.2 e =
        (.ok { state := .cancelled, sent := 0, received := 0 }, before.2)) ∧
    (∀ session report elapsed, Called s files (outside place) before.2 e session report elapsed →
      report.state = .cancelled →
      let judged := (before.2.after s session e report).judge e
      found.2 = judged.2 ∧
      (judged.1 = .ok () → ∃ r, found.1 = .ok r ∧ r.state = .cancelled ∧
        r.sent = report.outcome.sent ∧ r.received = report.outcome.received) ∧
      (∀ f, judged.1 = .error f → found.1 = .error f)) := by
  intro before found outcome
  obtain ⟨hlt, hget⟩ := List.getElem?_eq_some_iff.1 he
  have hsplit : entries = entries.take place ++ e :: entries.drop (place + 1) := by
    rw [← hget, List.getElem_cons_drop, List.take_append_drop]
  have hlength : (entries.take place).length = place := List.length_take_of_le (Nat.le_of_lt hlt)
  have hquiet (n : Nat) (hn : n < (entries.take place).length) : (outside (0 + n)).Quiet := by
    rw [Nat.zero_add]
    exact hinterrupt.before n (hlength ▸ hn)
  obtain ⟨hnames, hnot, happend⟩ := runFrom_append_of_quiet s files {} hquiet
    (e :: entries.drop (place + 1))
  rw [← hsplit, hlength, Nat.zero_add] at happend
  refine ⟨⟨hnames, hnot⟩, ?run, fun hinterrupted ↦ runEntry_interrupted hinterrupted, ?called⟩
  case run =>
    have hlater : runFrom s files outside (place + 1) found.2 (entries.drop (place + 1)) =
        ((entries[place + 1]?.map skipped).toList, found.2) := by
      rw [runFrom_interrupted (hinterrupt.after _ (Nat.lt_succ_self place)), List.head?_drop]
    have hfrom : runFrom s files outside place before.2 (e :: entries.drop (place + 1)) =
        (outcome :: (if outcome.isCancelled then [] else (entries[place + 1]?.map skipped).toList),
          found.2) := by
      rw [runFrom_cons, hlater]
      cases outcome.isCancelled <;> rfl
    rw [runAll, happend, hfrom]
  case called =>
    intro session report elapsed hcalled hstate judged
    have hfound : found = (judged.1.map _, judged.2) := hcalled.runEntry_eq
    rw [hfound]
    refine ⟨rfl, fun hjudged ↦ ?_, fun f hjudged ↦ ?_⟩
    · rw [hjudged]
      exact ⟨_, rfl, hstate, rfl, rfl⟩
    · rw [hjudged]
      rfl

/-! ## A long call of the Greeter -/

/-- Settings for calls of the Greeter by its descriptor set. -/
def greeterSettings : Settings where
  host := "localhost"
  schema := some (.descriptorSet "greeter.bin")
  importPaths := []
  transport := {}
  limits := {}
  timeout := none
  metadata := []
  source := .collection "greeter.json"

/-- The descriptor set of the Greeter. -/
def greeterFiles : Files := ⟨[("greeter.bin", Schema.writeFiles [Greeter.file])]⟩

/-- The Greeter with a call that is stopped after one message. -/
def stopping : Surroundings where
  network := Greeter.network fun _ ↦
    [.serve, .send, .serve, .receive, .serve, .serve, .receive, .stop, .quit]
  clock _ := .at 0 ""

/-- The call of the entry at a place is stopped. The Greeter cannot be reached before, and the
interrupt has come after. -/
def stoppedAt (place n : Nat) : Surroundings :=
  if n < place then { stopping with network := .down }
  else { stopping with interrupted := decide (place < n) }

theorem interruptedAt_stoppedAt (place : Nat) : InterruptedAt (stoppedAt place) place where
  before n hn := by
    rw [stoppedAt, if_pos hn]
    refine ⟨rfl, fun host t peer hpeer ↦ ?_⟩
    cases hpeer
  after n hn := by
    rw [stoppedAt, if_neg (Nat.lt_asymm hn)]
    exact decide_eq_true hn

theorem stoppedAt_self (place : Nat) : stoppedAt place place = stopping := by
  rw [stoppedAt, if_neg (Nat.lt_irrefl place), decide_eq_false (Nat.lt_irrefl place)]
  rfl

/-- A stream of greetings without an end, with expectations. -/
def endless (expect : List String) : Entry where
  name := "endless"
  call := "helloworld.Greeter/SayHellos"
  data := some (.object [("name", .string "Ada")])
  expect := expect

/-- A single greeting. -/
def single : Entry where
  name := "single"
  call := "helloworld.Greeter/SayHello"
  data := some (.object [("name", .string "Ada")])

theorem exists_called_endless (expect : List String) :
    ∃ session report elapsed, Called greeterSettings greeterFiles stopping {} (endless expect)
      session report elapsed ∧ report.state = .cancelled := by
  have hstate : ((Session.connect stopping.network greeterFiles
      (greeterSettings.config "localhost" (endless []))).toOption.bind fun session ↦
        (callEntry stopping session (endless []) ((endless []).payloads.map
          ({} : Harness).substitute) []).toOption.map (·.1.state)) = some .cancelled := by
    decide +kernel
  have hhost : greeterSettings.hostOf {} (endless []) = "localhost" := by decide +kernel
  obtain ⟨session, hsession, hstate⟩ := Option.bind_eq_some_iff.1 hstate
  obtain ⟨⟨report, elapsed⟩, hcall, hstate⟩ := Option.map_eq_some_iff.1 hstate
  refine ⟨session, report, elapsed, ⟨rfl, ?_, rfl, toOption_eq_some_iff.1 hcall⟩, hstate⟩
  have hhost' : greeterSettings.hostOf {} (endless expect) = "localhost" := hhost
  rw [hhost']
  exact toOption_eq_some_iff.1 hsession

theorem check_unmet (h : Harness) :
    h.check ["@contain(\"\", \"a\")"] =
      (.error (.note "expectation `@contain(\"\", \"a\")` does not hold"), h) := by
  have hneedle : Expr.Scans ['"', 'a', '"'] [.string "a"] := .of_lexeme (by decide) fun _ ↦ rfl
  have hsecond := (hneedle.append Expr.scans_rightParen).blank (c := ' ') rfl
  have hfirst := Expr.scans_emptyText.append (Expr.scans_comma.append hsecond)
  have hleaf (s : String) :
      Expr.SpellsExpr Expr.maxDepth (0 + 1) [.string s] (.literal (.string s)) :=
    .path (by decide) (.atom (.leaf rfl))
  have hparse : Expr.parse "@contain(\"\", \"a\")" =
      .ok (.call .contain [.literal (.string ""), .literal (.string "a")]) :=
    Expr.parse_of_spells (Expr.scans_contain.append hfirst)
      (.path (by decide) (.atom (.call (.more (hleaf "") (.last (hleaf "a"))))))
  rw [Harness.check, Harness.evaluate, Expr.Context.evaluate, hparse]
  rfl

/-- The call of the first entry is cancelled, and yet the entry fails, because what it expects does
not hold; and the next entry is reported as well. -/
theorem cancelled_call_fails :
    (∃ session report elapsed, Called greeterSettings greeterFiles (stoppedAt 0 0) {}
      (endless ["@contain(\"\", \"a\")"]) session report elapsed ∧ report.state = .cancelled) ∧
    (runAll greeterSettings greeterFiles (stoppedAt 0)
      [endless ["@contain(\"\", \"a\")"], single]).1 =
        [⟨"endless", .error (.note "expectation `@contain(\"\", \"a\")` does not hold")⟩,
          skipped single] := by
  rw [stoppedAt_self]
  have hcalled := exists_called_endless ["@contain(\"\", \"a\")"]
  refine ⟨hcalled, ?_⟩
  obtain ⟨session, report, elapsed, hcalled, -⟩ := hcalled
  have hrun := hcalled.runEntry_eq
  rw [Harness.judge, endless, check_unmet] at hrun
  rw [runAll, runFrom_cons, stoppedAt_self, endless, hrun,
    runFrom_interrupted ((interruptedAt_stoppedAt 0).after 1 Nat.one_pos)]
  rfl

/-- The Greeter cannot be reached for the first of three entries. The call of the second is ended by
the interrupt, and there is no third. -/
theorem runAll_interrupted_endless :
    (runAll greeterSettings greeterFiles (stoppedAt 1) [single, endless [], single]).1.map
      (fun outcome ↦ (outcome.name, outcome.isCancelled)) =
        [("single", false), ("endless", true)] := by
  have hentry : [single, endless [], single][1]? = some (endless []) := rfl
  obtain ⟨⟨hnames, hnot⟩, hrun, -, hcalled⟩ := runAll_interrupted greeterSettings greeterFiles
    hentry (interruptedAt_stoppedAt 1)
  generalize hbefore : runFrom greeterSettings greeterFiles (stoppedAt 1) 0 {}
    (List.take 1 [single, endless [], single]) = before at hnames hnot hrun hcalled
  have hharness : before.2 = {} := by
    have hsingle : (runEntry greeterSettings greeterFiles (stoppedAt 1 0) {} single).2 = {} :=
      runEntry_of_unreachable {} single fun host t peer hpeer ↦ by cases hpeer
    rw [← hbefore, List.take_succ_cons, List.take_zero, runFrom_cons, apply_ite Prod.snd, hsingle]
    exact ite_self _
  obtain ⟨outcomes, h⟩ := before
  obtain rfl : h = {} := hharness
  obtain ⟨session, report, elapsed, hendless, hstate⟩ := exists_called_endless []
  rw [← stoppedAt_self 1] at hendless
  obtain ⟨-, hok, -⟩ := hcalled session report elapsed hendless hstate
  obtain ⟨⟨state, sent, received, response, took⟩, hfound, hstate', -⟩ := hok rfl
  obtain rfl : state = .cancelled := hstate'
  obtain ⟨⟨name, result⟩, rfl, hname⟩ := List.map_eq_singleton_iff.1 hnames
  obtain rfl : name = "single" := hname
  have hfirst := hnot _ (List.mem_singleton_self _)
  rw [hrun, hfound]
  rw [List.map_append, List.map_singleton, hfirst]
  rfl

end Probe

end CallCheck

import CallCheck.Proofs.Worker.Stopping
import CallCheck.Worker.LifeCycle

/-!
# Lives of workers

What a worker goes through: calls of any kind that end in any way, calls that are refused, and uses
of its stop handle before, during and after them. A stop marks the token of the call that is running
and no other.

## Main statement

`life_of_worker` says what a worker has counted after any life and that no call is active then, what
its calls and stops have answered, and how one more call goes: only the stops in its own time decide
whether it counts as cancelled, whatever has been stopped before.
-/

namespace CallCheck.Worker

open Call (Error)
open Session (Outcome)

variable {π ι α β σ : Type}

/-! ## What a worker goes through -/

/-- What is done with a worker. -/
inductive Operation (β : Type)
  /-- Its stop handle is used while no call is running. -/
  | stop
  /-- A call without data is started. -/
  | refused
  /-- A call is made that ends in some way, and the stop handle is used a number of times before it
  has ended. -/
  | call (stops : Nat) (result : Except Error (Outcome β))

/-- What is answered. -/
inductive Answer (β : Type)
  /-- Whether there was a call to stop. -/
  | stop (found : Bool)
  /-- What a call returns. -/
  | call (result : Except Error (Report β))

/-- The worker after events. -/
def after (w : Worker) (events : List (Event β)) : Worker := events.foldl step w

/-- What is answered to an event. -/
def answer (w : Worker) : Event β → List (Answer β)
  | .refused => [.call (.error .noData)]
  | .started => []
  | .stop => [.stop w.stop.1]
  | .finished result => [.call (w.finish result).1]

/-- What is answered to events, one after the other. -/
def answers (w : Worker) : List (Event β) → List (Answer β)
  | [] => []
  | e :: rest => w.answer e ++ (w.step e).answers rest

/-- The report of a call that was stopped a number of times. -/
def Report.ofStops (stops : Nat) (outcome : Outcome β) : Report β :=
  ⟨if 0 < stops then .cancelled else .completed, outcome⟩

theorem Report.state_ofStops (stops : Nat) (outcome : Outcome β) :
    ((ofStops stops outcome).state = .cancelled ↔ 0 < stops) ∧
      ((ofStops stops outcome).state = .completed ↔ ¬ 0 < stops) := by
  by_cases h : 0 < stops <;> simp [ofStops, h]

namespace Operation

/-- The events of an operation. -/
def events : Operation β → List (Event β)
  | stop => [.stop]
  | refused => [.refused]
  | call stops result => .started :: (List.replicate stops .stop ++ [.finished result])

/-- Whether an operation starts a call. -/
def isRun : Operation β → Bool
  | stop => false
  | refused | call .. => true

/-- What an operation by itself answers. -/
def answers : Operation β → List (Answer β)
  | stop => [.stop false]
  | refused => [.call (.error .noData)]
  | call stops result =>
    List.replicate stops (.stop true) ++ [.call (result.map (Report.ofStops stops))]

end Operation

variable {w : Worker}

theorem after_append (w : Worker) (es fs : List (Event β)) :
    w.after (es ++ fs) = (w.after es).after fs := List.foldl_append

theorem answers_append (w : Worker) (es fs : List (Event β)) :
    w.answers (es ++ fs) = w.answers es ++ (w.after es).answers fs := by
  induction es generalizing w with
  | nil => rfl
  | cons e es ih => simp [answers, ih, after]

/-- The worker while a call is running that was stopped a number of times. -/
def during (w : Worker) (stops : Nat) : Worker := { w.start with stopped := decide (0 < stops) }

theorem during_stop (w : Worker) (stops : Nat) :
    (w.during stops).stop = (true, w.during (stops + 1)) := by
  simp [during, stop, start]

theorem after_stops (w : Worker) (stops : Nat) :
    w.start.after (List.replicate stops (.stop : Event β)) = w.during stops := by
  induction stops with
  | zero => rfl
  | succ n ih =>
    rw [List.replicate_succ', after_append, ih]
    exact congrArg Prod.snd (during_stop w n)

theorem answers_stops (w : Worker) (stops : Nat) :
    w.start.answers (List.replicate stops (.stop : Event β)) =
      List.replicate stops (.stop true) := by
  induction stops with
  | zero => rfl
  | succ n ih =>
    rw [List.replicate_succ', answers_append, ih, after_stops, List.replicate_succ', answers,
      answers, answer, during_stop]
    rfl

/-- **Only the stops of a call decide what is reported of it.** -/
theorem during_finish (w : Worker) (stops : Nat) (result : Except Error (Outcome β)) :
    ((w.during stops).finish result).1 = result.map (Report.ofStops stops) := by
  cases result <;> simp [finish, during, Except.map, Report.ofStops]

theorem state_finish (w : Worker) (result : Except Error (Outcome β)) :
    (w.finish result).2.active = false ∧
      ((w.finish result).2.state = .failed ↔ ∃ e, (w.finish result).1 = .error e) ∧
      ∀ report, (w.finish result).1 = .ok report → (w.finish result).2.state = report.state := by
  cases result with
  | error e => simp [finish]
  | ok outcome => cases hstopped : w.stopped <;> simp [finish, hstopped]

theorem after_call (w : Worker) (stops : Nat) (result : Except Error (Outcome β)) :
    w.after (Operation.call stops result).events = ((w.during stops).finish result).2 := by
  rw [← after_stops (β := β)]
  exact List.foldl_append

theorem state_of_returned (w : Worker) {op : Operation β}
    {result : Except Error (Report β)} (hresult : .call result ∈ op.answers) :
    ((w.after op.events).state = .failed ↔ ∃ e, result = .error e) ∧
      ∀ report, result = .ok report → (w.after op.events).state = report.state := by
  cases op with
  | stop => simp [Operation.answers] at hresult
  | refused =>
    obtain rfl : result = .error .noData := by simpa [Operation.answers] using hresult
    simp [Operation.events, after, step, refuse]
  | call stops outcome =>
    obtain rfl : result = outcome.map (Report.ofStops stops) := by
      simpa [Operation.answers] using hresult
    rw [after_call, ← during_finish]
    exact (state_finish _ _).2

/-- A worker between calls: how many it has started, and of which method. -/
structure Rests (w : Worker) (method : Schema.Method) (runs : Nat) : Prop where
  active : w.active = false
  runs : w.requestNumber = runs
  method : w.method = method

namespace Rests

variable {w : Worker} {method : Schema.Method} {runs : Nat}

theorem answers_eq (h : w.Rests method runs) (op : Operation β) :
    w.answers op.events = op.answers := by
  cases op with
  | stop => simp [Operation.events, Operation.answers, answers, answer, stop, h.active]
  | refused => rfl
  | call stops result =>
    rw [Operation.events, answers, answers_append]
    change [] ++ (w.start.answers _ ++ (w.start.after _).answers _) = _
    rw [answers_stops, after_stops, Operation.answers, answers, answers, answer, during_finish]
    rfl

theorem operation (h : w.Rests method runs) (op : Operation β) :
    (w.after op.events).Rests method (runs + if op.isRun then 1 else 0) := by
  obtain ⟨hactive, hruns, hmethod⟩ := h
  have hnext : w.requestNumber + 1 = ((runs + 1 : Nat) : Int) := by
    rw [hruns]
    rfl
  cases op with
  | stop =>
    have hstop : w.after (Operation.stop : Operation β).events = w := by
      simp [Operation.events, after, step, stop, hactive]
    rw [hstop]
    exact ⟨hactive, hruns, hmethod⟩
  | refused => exact ⟨hactive, hnext, hmethod⟩
  | call stops result =>
    rw [after_call]
    cases result with
    | error e => exact ⟨rfl, hnext, hmethod⟩
    | ok outcome => exact ⟨rfl, hnext, hmethod⟩

/-- Every operation leaves a worker between calls, and what it answers has nothing to do with those
before it. -/
theorem operations (h : w.Rests method runs) (ops : List (Operation β)) :
    (w.after (ops.flatMap Operation.events)).Rests method (runs + ops.countP Operation.isRun) ∧
      w.answers (ops.flatMap Operation.events) = ops.flatMap Operation.answers := by
  induction ops generalizing w runs with
  | nil => exact ⟨h, rfl⟩
  | cons op ops ih =>
    obtain ⟨hrests, hanswers⟩ := ih (h.operation op)
    rw [List.flatMap_cons, after_append, answers_append, h.answers_eq, hanswers]
    refine ⟨?_, rfl⟩
    rwa [List.countP_cons, Nat.add_comm (List.countP _ ops), ← Nat.add_assoc]

end Rests

/-- A call by a schedule, stopped a number of times more when it has come to its end. -/
def perform (w : Worker) (c : Calling π ι α β σ) (timeout : Option Nat) (schedule : List Step)
    (late : Nat) : Except Error (Report β) × Worker :=
  let call := c.run w.method.kind schedule
  let stops := (if call.1 then 1 else 0) + late
  (w.start.after (List.replicate stops (.stop : Event β))).finish (conclude timeout call.2)

theorem perform_state {w : Worker} {c : Calling π ι α β σ} {timeout : Option Nat}
    {schedule : List Step} {late : Nat} {report : Report β}
    (h : (w.perform c timeout schedule late).1 = .ok report) :
    (report.state = .cancelled ↔ c.IsStopped w.method.kind schedule ∨ 0 < late) ∧
      (report.state = .completed ↔ ¬ (c.IsStopped w.method.kind schedule ∨ 0 < late)) := by
  have hstops : 0 < (if (c.run w.method.kind schedule).1 then 1 else 0) + late ↔
      c.IsStopped w.method.kind schedule ∨ 0 < late := by
    rw [← c.stopped_iff]
    cases (c.run w.method.kind schedule).1 with
    | false => simp
    | true => simp [Nat.add_comm]
  simp only [perform, after_stops, during_finish] at h
  cases hresult : conclude timeout (c.run w.method.kind schedule).2 with
  | error e =>
    rw [hresult] at h
    cases h
  | ok outcome =>
    rw [hresult] at h
    obtain rfl := Except.ok.inj h
    rw [← hstops]
    exact Report.state_ofStops _ outcome

/-- **The life of a worker.** After any operations, as many calls have been started as there were
and none is active. Every operation has answered what it answers by itself: a stop finds a call
while one is running and only then, and a call that does not fail is cancelled just when it was
stopped itself. The state agrees with what a call has returned. While a call is running it can be
stopped, and its token is marked just when it has been. When a call is made by a schedule, the stops
are those of the schedule; nothing else that the schedule does makes the call a cancelled one. -/
theorem life_of_worker (id : String) (method : Schema.Method) (ops : List (Operation β)) :
    let fresh : Worker := { id, method }
    let w := fresh.after (ops.flatMap Operation.events)
    w.requestNumber = (ops.countP Operation.isRun : Nat) ∧
      w.active = false ∧
      fresh.answers (ops.flatMap Operation.events) = ops.flatMap Operation.answers ∧
      (∀ (op : Operation β) (result : Except Error (Report β)), .call result ∈ op.answers →
        (w.after op.events).active = false ∧
          ((w.after op.events).state = .failed ↔ ∃ e, result = .error e) ∧
          ∀ report, result = .ok report → (w.after op.events).state = report.state) ∧
      (∀ stops, let running := w.start.after (List.replicate stops (.stop : Event β))
        running.active = true ∧ running.state = .running ∧
          running.requestNumber = w.requestNumber + 1 ∧ running.stop.1 = true ∧
          (running.stopped = true ↔ 0 < stops)) ∧
      ∀ (c : Calling π ι α β σ) (timeout : Option Nat) (schedule : List Step) (late : Nat)
        (report : Report β), (w.perform c timeout schedule late).1 = .ok report →
        (report.state = .cancelled ↔ c.IsStopped method.kind schedule ∨ 0 < late) ∧
          (report.state = .completed ↔ ¬ (c.IsStopped method.kind schedule ∨ 0 < late)) := by
  intro fresh w
  have hfresh : fresh.Rests method 0 := ⟨rfl, rfl, rfl⟩
  obtain ⟨hrests, hanswers⟩ := hfresh.operations ops
  refine ⟨?_, hrests.active, hanswers, ?_, ?_, ?_⟩
  · simpa using hrests.runs
  · intro op result hresult
    exact ⟨(hrests.operation op).active, state_of_returned w hresult⟩
  · intro stops
    rw [after_stops]
    simp [during, start, stop]
  · intro c timeout schedule late report hreport
    have hmethod : w.method = method := hrests.method
    rw [← hmethod]
    exact perform_state hreport

/-- A method with a stream of replies. -/
def ticks : Schema.Method :=
  ⟨.of "clock" "Clock", "Ticks", .of "clock" "Request", .of "clock" "Tick", false, true⟩

/-- A server that sends headers and then the numbers from one on. -/
def ticking : Process Unit Nat Nat
  | 0 => .greet [] 1
  | n + 1 => .write (n + 1) (n + 2)

/-- A call of the server that may take a second. -/
def timed : Calling (List Unit) Unit Unit Nat Nat where
  ask := fromList
  provider := [()]
  intercept := letPass
  watch := ()
  limits := { duration := some 1000 }
  process := ticking
  start := 0

/-- A call that was stopped twice, a stop between calls, and a call without data; then a call that
its duration ends, which is complete. -/
theorem life_of_worker_timed :
    let fresh : Worker := { id := "clock", method := ticks }
    let ops : List (Operation Nat) := [.call 2 (.ok {}), .stop, .refused]
    let w := fresh.after (ops.flatMap Operation.events)
    w.requestNumber = 2 ∧
      fresh.answers (ops.flatMap Operation.events) =
        [.stop true, .stop true, .call (.ok ⟨.cancelled, {}⟩), .stop false,
          .call (.error .noData)] ∧
      ∃ report, (w.perform timed none [.serve, .receive, .serve, .receive, .expire, .quit] 0).1 =
          .ok report ∧ report.state = .completed ∧ report.outcome.received = 1 := by
  intro fresh ops w
  obtain ⟨hruns, -, hanswers, -, -, hcalls⟩ :=
    life_of_worker (π := List Unit) (ι := Unit) (α := Unit) (σ := Nat) "clock" ticks ops
  have hunstopped : ¬ (timed.IsStopped ticks.kind
      [.serve, .receive, .serve, .receive, .expire, .quit] ∨ 0 < 0) := by
    rintro (⟨before, after, heq, -⟩ | h)
    · have hmem : Step.stop ∈ [Step.serve, .receive, .serve, .receive, .expire, .quit] := by
        rw [heq]
        simp
      simp at hmem
    · exact Nat.lt_irrefl 0 h
  refine ⟨hruns, hanswers, _, rfl, (hcalls timed none _ 0 _ rfl).2.2 hunstopped, rfl⟩

end CallCheck.Worker

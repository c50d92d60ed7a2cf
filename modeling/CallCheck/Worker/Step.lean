/-!
# Steps of a call

A call in progress is several loops at once: one sends, one receives, the transport moves messages
between them and the server, and a timer and the stop handle interfere. What each of them does
without waiting for another is one step. A call runs in any order of steps, so everything that is
said of it is said of every list of them.

Steps that cannot be made yet are passed over. A list of steps is then a schedule: it says who is
given a chance to go on, and when.
-/

namespace CallCheck.Worker

/-- Who goes on, or what happens. -/
inductive Step
  /-- The sending loop goes on. -/
  | send
  /-- The pause between two messages is over. -/
  | rest
  /-- The transport takes a message to the server. -/
  | take
  /-- The transport takes no more messages. -/
  | close
  /-- The server goes on. -/
  | serve
  /-- The receiving loop takes what has arrived. -/
  | receive
  /-- The receiving loop notices that it is to give up. -/
  | quit
  /-- The time of the stream is over. -/
  | expire
  /-- The call is stopped. -/
  | stop
  deriving DecidableEq, Repr

/-- A state after a schedule, given what each step does where it can be made. -/
def runSchedule (step : Step → σ → Option σ) (schedule : List Step) (start : σ) : σ :=
  schedule.foldl (fun s e ↦ (step e s).getD s) start

@[simp] theorem runSchedule_nil (step : Step → σ → Option σ) (s : σ) :
    runSchedule step [] s = s := rfl

@[simp] theorem runSchedule_cons (step : Step → σ → Option σ) (e : Step) (rest : List Step)
    (s : σ) : runSchedule step (e :: rest) s = runSchedule step rest ((step e s).getD s) := rfl

theorem runSchedule_append (step : Step → σ → Option σ) (first second : List Step) (s : σ) :
    runSchedule step (first ++ second) s =
      runSchedule step second (runSchedule step first s) := by
  simp [runSchedule]

/-- What every step keeps, every schedule keeps. -/
theorem runSchedule_induction {step : Step → σ → Option σ} {P : σ → Prop}
    (keeps : ∀ e s s', step e s = some s' → P s → P s') (schedule : List Step) {start : σ}
    (h : P start) : P (runSchedule step schedule start) := by
  induction schedule generalizing start with
  | nil => exact h
  | cons e rest ih =>
    rw [runSchedule_cons]
    apply ih
    cases hs : step e start with
    | none => exact h
    | some s' => exact keeps e start s' hs h

end CallCheck.Worker

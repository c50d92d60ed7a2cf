import CallCheck.Call.Resolve
import CallCheck.Proofs.Greeter.Answers
import CallCheck.Proofs.Worker.Reading
import CallCheck.Worker.LifeCycle

/-!
# Reports of calls of the Greeter

A worker calls a method of the Greeter with a list of requests. What it reports depends on the
requests and on the limit of messages only, not on who goes on when. `outcome` gives it for every
method. That it is given in one list of four cases hides how they differ: the limit bounds what is
received where replies are numbered and what is sent where requests are streamed, and so it decides
in different ways whether a name that makes the method fail is reached.
-/

namespace CallCheck.Greeter

open Call (Error Limits)
open Schema (CallKind)
open Session (Metadata Outcome)
open Worker (Answers Bidi.comesTo_ended Calling ComesTo Report ServerStream.comesTo_ended
  ServerStream.comesTo_enough Step letPass)

/-- The methods of the Greeter. -/
inductive Method
  | hello
  | hellos
  | collect
  | converse
  deriving DecidableEq, Repr

/-- A method of the service, as its schema has it. -/
def declared (name : String) (clientStreaming serverStreaming : Bool) : Schema.Method where
  service := .of "helloworld" "Greeter"
  name
  input := .of "helloworld" "HelloRequest"
  output := .of "helloworld" "HelloReply"
  clientStreaming
  serverStreaming

namespace Method

/-- A method in the schema. -/
def schema : Method → Schema.Method
  | .hello => declared "SayHello" false false
  | .hellos => declared "SayHellos" false true
  | .collect => declared "SayHelloCS" true false
  | .converse => declared "SayHelloBidi" true true

/-- Where the service starts. -/
def initial : Method → State
  | .hello => .hello
  | .hellos => .hellos
  | .collect => .collecting []
  | .converse => .opening (.conversing 0)

end Method

/-- A call with a list of requests, without an interceptor, of a service that starts somewhere. -/
def calling (metadata : Metadata) (limits : Limits) (requests : List Request) (start : State) :
    Calling (List Request) Unit Request Reply State where
  ask := Worker.fromList
  provider := requests
  intercept := letPass
  watch := ()
  limits
  process := process metadata
  start

/-- How many numbered greetings are received: the smaller of what is asked for and what is enough,
where zero is no bound. -/
def numberedCount (limits : Limits) (r : Request) : Nat :=
  if r.count = 0 then limits.messages.getD 0 else limits.enough r.count

/-- The requests that are sent on a stream. -/
def told (limits : Limits) (requests : List Request) : List Request :=
  requests.take (limits.enough requests.length)

/-- What a call of a method comes to. -/
def outcome (metadata : Metadata) (limits : Limits) (first : Request) (rest : List Request) :
    Method → Except Error (Outcome Reply)
  | .hello => .ok {
      sent := 1
      received := 1
      response := some ⟨greet first.name, 1⟩
      headers := headers metadata }
  | .hellos =>
    if first.name = failName ∧ limits.messages ≠ some 1 then .error (.status (forced .internal))
    else
      let received := if first.name = failName then 1 else numberedCount limits first
      .ok {
        sent := 1
        received
        response := some (numbered first.name received)
        headers := headers metadata }
  | .collect =>
    let told := told limits (first :: rest)
    if ∃ r ∈ told, r.name = failName then .error (.status (forced .invalidArgument))
    else .ok {
      sent := told.length
      received := 1
      response := some ⟨greet (", ".intercalate (told.map Request.name)), told.length⟩
      headers := headers metadata }
  | .converse =>
    let told := told limits (first :: rest)
    if ∃ r ∈ told, r.name = failName then .error (.status (forced .internal))
    else .ok {
      sent := told.length
      received := told.length
      response := told.getLast?.map fun r ↦ ⟨greet r.name, told.length⟩
      headers := headers metadata }

variable {metadata : Metadata} {limits : Limits} {first : Request} {rest : List Request}

/-! ## One request -/

theorem comesTo_hello :
    ComesTo ((calling metadata limits (first :: rest) .hello).run .unary)
      (outcome metadata limits first rest .hello) :=
  Worker.Unary.comesTo (answers_hello first) ⟨rfl, rfl, rfl, rfl⟩ rfl

/-- What is enough comes before the end of the numbered greetings, or there is no end to them. -/
theorem numberedCount_of_reached {r : Request} (hsome : 0 < r.count ∨ 0 < limits.messages.getD 0)
    (hreached : r.count = 0 ∨ limits.reached r.count = true) :
    ∃ n, numberedCount limits r = n + 1 ∧ limits.reached n = false ∧
      limits.reached (n + 1) = true ∧ (r.count = 0 ∨ n + 1 ≤ r.count) := by
  have hmax : ∃ max, limits.messages = some max ∧ 0 < max ∧ (r.count = 0 ∨ max ≤ r.count) := by
    rcases hreached with hzero | hreached
    · cases hmessages : limits.messages with
      | none => rw [hmessages, Option.getD_none] at hsome; omega
      | some max =>
        rw [hmessages, Option.getD_some] at hsome
        exact ⟨max, rfl, by omega, .inl hzero⟩
    · obtain ⟨max, hmessages, hpos, hle⟩ := (limits.reached_iff _).1 hreached
      exact ⟨max, hmessages, hpos, .inr hle⟩
  obtain ⟨max, hmessages, hpos, hle⟩ := hmax
  refine ⟨max - 1, ?_, ?_, ?_, by omega⟩
  · rw [numberedCount, Limits.enough, hmessages]
    dsimp only
    rw [if_pos hpos, Option.getD_some]
    split <;> omega
  · rw [limits.reached_eq_decide hmessages hpos]
    exact decide_eq_false (by omega)
  · rw [limits.reached_eq_decide hmessages hpos]
    exact decide_eq_true (by omega)

theorem comesTo_hellos (hduration : limits.duration = none) (hname : first.name ≠ failName)
    (hsome : 0 < first.count ∨ 0 < limits.messages.getD 0) :
    ComesTo ((calling metadata limits (first :: rest) .hellos).run .serverStreaming)
      (outcome metadata limits first rest .hellos) := by
  have hlength : ∀ n, (numberedFrom first.name 1 n).length = n := length_numberedFrom 1
  rw [outcome, if_neg fun h ↦ hname h.1]
  dsimp only
  rw [if_neg hname]
  by_cases hreached : first.count = 0 ∨ limits.reached first.count = true
  · obtain ⟨n, hn, hnot, henough, hle⟩ := numberedCount_of_reached hsome hreached
    -- The answer may have no end; as much of it as is enough decides.
    have hanswers : Answers (process metadata) _ .hellos [first] _ :=
      answers_hellos first hname hle
    rw [numberedFrom_succ, List.map_append, List.append_nil] at hanswers
    have hcomes := ServerStream.comesTo_enough _ hduration hanswers (by rwa [hlength])
      (by rwa [hlength])
    rw [hn]
    rwa [hlength, Nat.add_comm 1] at hcomes
  · obtain ⟨hcount, hnot⟩ := not_or.1 hreached
    rw [Bool.not_eq_true] at hnot
    have hn : numberedCount limits first = first.count := by
      rw [numberedCount, if_neg hcount, limits.enough_of_not_reached hnot]
    have hlast : (numberedFrom first.name 1 first.count).getLast? =
        some (numbered first.name first.count) := by
      obtain ⟨n, hsucc⟩ := Nat.exists_eq_succ_of_ne_zero hcount
      rw [hsucc, Nat.succ_eq_add_one, numberedFrom_succ, List.getLast?_concat, Nat.add_comm 1]
    have hanswers : Answers (process metadata) _ .hellos [first] _ :=
      answers_hellos_all first hname (Nat.pos_of_ne_zero hcount)
    have hcomes := ServerStream.comesTo_ended _ hduration hanswers (by rwa [hlength])
    rw [hn]
    rwa [hlength, hlast] at hcomes

theorem comesTo_hellos_fail (hduration : limits.duration = none) (hname : first.name = failName) :
    ComesTo ((calling metadata limits (first :: rest) .hellos).run .serverStreaming)
      (outcome metadata limits first rest .hellos) := by
  rw [outcome]
  dsimp only
  by_cases hone : limits.messages = some 1
  · have hreached : limits.reached 1 = true := limits.reached_eq_decide hone Nat.one_pos 1
    rw [if_neg fun h ↦ h.2 hone, if_pos hname]
    exact ServerStream.comesTo_enough [] hduration (answers_hellos_fail first hname .later)
      limits.reached_zero hreached
  · have hnot : limits.reached 1 = false := by
      rw [← Bool.not_eq_true, limits.reached_iff]
      rintro ⟨max, hmax, hpos, hle⟩
      obtain rfl : max = 1 := by omega
      exact hone hmax
    rw [if_pos ⟨hname, hone⟩]
    exact ServerStream.comesTo_ended [numbered first.name 1] hduration
      (answers_hellos_fail first hname (.finish rfl nofun)) hnot

/-! ## A stream of requests -/

theorem length_told (limits : Limits) (requests : List Request) :
    (told limits requests).length = limits.enough requests.length := by
  rw [told, List.length_take, Nat.min_eq_left (limits.enough_le _)]

theorem comesTo_collect (hduration : limits.duration = none)
    (hlength : (first :: rest).length ≤ Numeric.maxUnsigned 32) :
    ComesTo ((calling metadata limits (first :: rest) (.collecting [])).run .clientStreaming)
      (outcome metadata limits first rest .collect) := by
  rw [outcome]
  split
  · rename_i hfail
    obtain ⟨k, hanswers⟩ := answers_collecting_fail hfail []
    exact Worker.ClientStream.comesTo hduration hanswers ⟨rfl, rfl⟩ rfl nofun
  · rename_i hnot
    have hnames : ∀ r ∈ told limits (first :: rest), r.name ≠ failName :=
      fun r hr hname ↦ hnot ⟨r, hr, hname⟩
    have hcount : min (0 + (told limits (first :: rest)).length) (Numeric.maxUnsigned 32) =
        (told limits (first :: rest)).length := by
      rw [length_told, Nat.zero_add]
      exact Nat.min_eq_left (Nat.le_trans (limits.enough_le _) hlength)
    obtain ⟨k, hanswers⟩ := answers_collecting hnames []
    rw [List.nil_append, List.length_nil, hcount] at hanswers
    have hended : ∀ {headers : Metadata} {reply : Reply}, .ended none ∈
        ([.headers headers, .message reply, .ended none] : List (Worker.Arrival Reply)) :=
      List.mem_cons_of_mem _ (List.mem_cons_of_mem _ (List.mem_singleton.2 rfl))
    refine Worker.ClientStream.comesTo hduration hanswers ⟨rfl, rfl, rfl, rfl⟩ ?_ fun _ _ ↦ hended
    rw [length_told]
    rfl

theorem comesTo_converse (hduration : limits.duration = none) :
    ComesTo ((calling metadata limits (first :: rest) (.opening (.conversing 0))).run .bidi)
      (outcome metadata limits first rest .converse) := by
  rw [outcome]
  split
  · rename_i hfail
    obtain ⟨k, replies, hanswers⟩ := answers_conversing_fail hfail 0
    exact Bidi.comesTo_ended replies hduration (answers_opening hanswers)
  · rename_i hnot
    have hnames : ∀ r ∈ told limits (first :: rest), r.name ≠ failName :=
      fun r hr hname ↦ hnot ⟨r, hr, hname⟩
    obtain ⟨k, hanswers⟩ := answers_conversing hnames 0
    have hcomes := Bidi.comesTo_ended _ hduration (answers_opening hanswers)
    rw [length_greetings, getLast?_greetings, Nat.zero_add, ← length_told] at hcomes
    exact hcomes

/-! ## All methods -/

theorem comesTo_outcome (method : Method) (hduration : limits.duration = none)
    (hlength : (first :: rest).length ≤ Numeric.maxUnsigned 32)
    (hsome : method = .hellos → 0 < first.count ∨ 0 < limits.messages.getD 0) :
    ComesTo ((calling metadata limits (first :: rest) method.initial).run method.schema.kind)
      (outcome metadata limits first rest method) := by
  cases method with
  | hello => exact comesTo_hello
  | hellos =>
    by_cases hname : first.name = failName
    · exact comesTo_hellos_fail hduration hname
    · exact comesTo_hellos hduration hname (hsome rfl)
  | collect => exact comesTo_collect hduration hlength
  | converse => exact comesTo_converse hduration

/-- What a worker reports of a call by a schedule, if the call ends, and whether it was stopped. -/
def reported (w : Worker) (metadata : Metadata) (limits : Limits) (requests : List Request)
    (schedule : List Step) : Bool × Option (Except Error (Report Reply)) :=
  match w.method.path with
  | .error e => (false, some (.error e))
  | .ok path =>
    let (stopped, result) :=
      (calling metadata limits requests (start path)).run w.method.kind schedule
    let running := if stopped then w.start.stop.2 else w.start
    (stopped, result.map fun result ↦ (running.finish result).1)

theorem exists_path (method : Method) :
    ∃ path, method.schema.path = .ok path ∧ start path = method.initial := by
  cases method <;> exact ⟨_, rfl, rfl⟩

theorem finish_start (w : Worker) (result : Except Error (Outcome Reply)) :
    (w.start.finish result).1 = result.map (Report.mk .completed) := by
  cases result <;> rfl

/-- **What a worker reports of the Greeter.** A worker calls a method of the Greeter with a list of
requests that a counter of 32 bits can count, and nobody stops it. In whatever order the sending
loop, the receiving loop and the server go on, it reports nothing but the outcome of the method; if
they go on for ever and fairly, it does report it. Numbered greetings need an end, which is either
the count of the first request or the limit of messages. -/
theorem report_of_greeter (w : Worker) (method : Method) (hmethod : w.method = method.schema)
    (metadata : Metadata) (limits : Limits) (first : Request) (rest : List Request)
    (hduration : limits.duration = none) (hlength : (first :: rest).length ≤ Numeric.maxUnsigned 32)
    (hsome : method = .hellos → 0 < first.count ∨ 0 < limits.messages.getD 0) :
    ComesTo (reported w metadata limits (first :: rest))
      ((outcome metadata limits first rest method).map (Report.mk .completed)) := by
  obtain ⟨path, hpath, hstart⟩ := exists_path method
  have hcomes : ComesTo _ (outcome metadata limits first rest method) :=
    comesTo_outcome method hduration hlength hsome
  refine hcomes.imp ?_ ?_
  · intro schedule hrun
    rw [reported, hmethod, hpath]
    dsimp only
    rw [hstart, hrun]
    rfl
  · intro schedule hrun
    rw [reported, hmethod, hpath]
    dsimp only
    rw [hstart, hrun]
    exact congrArg (false, some ·) (finish_start w _)

/-- Of five numbered greetings two are enough. -/
theorem report_of_greeter_hellos :
    ComesTo (reported ⟨"two", Method.hellos.schema, .idle, 0, false, false⟩ []
        { messages := some 2 } [⟨"Ada", 5⟩, ⟨"error", 0⟩])
      (.ok ⟨.completed, {
        sent := 1
        received := 2
        response := some ⟨"Hello Ada #2", 2⟩
        headers := [("x-served-by", "rpcprobe-testserver")] }⟩) :=
  report_of_greeter _ .hellos rfl [] { messages := some 2 } ⟨"Ada", 5⟩ [⟨"error", 0⟩] rfl
    (by decide) fun _ ↦ .inl (by decide)

end CallCheck.Greeter

import CallCheck.Probe.EnvFile
import CallCheck.Probe.Run
import CallCheck.Text.Calendar

/-!
# The program

From arguments, variables and files to the lines that are printed and the code with which the
program ends. Zero means that every entry ran to its end and passed; arguments that cannot be used
end with two, and everything else with one.
-/

namespace CallCheck.Probe

/-- What the program is started with. -/
structure Invocation where
  /-- The arguments. -/
  arguments : List String
  /-- The variables of the environment. -/
  inherited : EnvFile.Variables := []
  /-- The files that can be read. -/
  files : Files := {}
  deriving Repr

/-- What the program has to say. -/
structure Answer where
  /-- The code with which it ends. -/
  code : Nat
  /-- What it prints. -/
  output : List String := []
  /-- What it says about what went wrong. -/
  complaint : List String := []
  deriving DecidableEq, Repr

/-- The answer to a failure. -/
def Failure.answer (f : Failure) : Answer := { code := 1, complaint := f.complaint }

/-! ## Reports -/

/-- What is printed for an entry. -/
def EntryOutcome.report (o : EntryOutcome) : List String :=
  match o.result with
  | .error f => [s!"FAIL {o.name}: {f.message}"]
  | .ok r =>
    let label := if r.state = .cancelled then "STOP" else "PASS"
    let counts := s!"{r.state.name}, sent {r.sent}, received {r.received}"
    s!"{label} {o.name} ({counts}, {Text.duration r.elapsed})" ::
      (r.response.map Json.indentedText).toList

/-- How many entries failed. -/
def failures (outcomes : List EntryOutcome) : Nat := outcomes.countP fun o ↦ !o.passed

/-- What the program answers after the entries of a collection have been run. -/
def conclude (entries : List Entry) (outcomes : List EntryOutcome) : Answer :=
  let failed := failures outcomes
  let skipped := entries.length - outcomes.length
  let output := outcomes.flatMap EntryOutcome.report
  if failed = 0 ∧ skipped = 0 then { code := 0, output }
  else
    let fault := Failure.note s!"{failed} of {entries.length} entries failed, {skipped} skipped"
    { code := 1, output, complaint := fault.complaint }

/-! ## The program about itself -/

/-- How an option is shown. -/
def OptionForm.usage (form : OptionForm) : String :=
  let short := (form.short.map fun c ↦ s!"-{c}, ").getD "    "
  let value := if form.value = .flag then "" else s!" <{form.long.toUpper}>"
  let standIn := (form.fallback.map fun name ↦ s!" [env: {name}]").getD ""
  s!"  {short}--{form.long}{value}{standIn}"

/-- What the program says about its options. -/
def help : List String :=
  ["Call any gRPC method by name, assert on the reply, and chain calls", "",
    "Usage: rpcprobe [OPTIONS]", "", "Options:"] ++ optionForms.map OptionForm.usage

/-- What the program says about its version. -/
def version : List String := ["rpcprobe 0.3.2"]

/-- What the program answers to arguments that it does not run with. -/
def UsageFault.answer (fault : UsageFault) : Answer :=
  match fault with
  | .displayHelp => { code := 0, output := help }
  | .displayVersion => { code := 0, output := version }
  | _ => { code := 2, complaint := [s!"error: {fault.message}"] }

/-! ## The whole -/

/-- The variables, with those of the file `.env`. -/
def Invocation.environment (i : Invocation) : EnvFile.Variables :=
  match i.files.text? ".env" with
  | some text => EnvFile.load i.inherited text
  | none => i.inherited

/-- The paths that the program looks at, as far as the files at hand tell. -/
def Invocation.paths (i : Invocation) : List String :=
  match Options.parse i.arguments (i.environment.lookup ·) with
  | .error _ => [".env"]
  | .ok options =>
    let settings := (Settings.ofOptions i.files options).toOption
    ".env" :: options.certificates ++ (settings.map (·.paths i.files)).getD []

/-- Runs settings. -/
def runSettings (files : Files) (outside : Nat → Surroundings) (s : Settings) : Answer :=
  match s.entries files with
  | .error f => f.answer
  | .ok entries => conclude entries (runAll s files outside entries).1

/-- Runs the program. -/
def Invocation.run (i : Invocation) (outside : Nat → Surroundings) : Answer :=
  match Options.parse i.arguments (i.environment.lookup ·) with
  | .error fault => fault.answer
  | .ok options =>
    match Settings.ofOptions i.files options with
    | .error f => f.answer
    | .ok settings => runSettings i.files outside settings

end CallCheck.Probe

import CallCheck.Probe.Program

/-!
# Command line

Takes the arguments, the variables and the files that the program looks at, and prints its answer.
Which files these are shows as they are read: a collection names schemas, and a schema names what
it imports.
-/

namespace CallCheck

open Probe

/-- The variables of the environment that options can be taken from. -/
def readVariables : IO EnvFile.Variables := do
  let found ← (optionForms.filterMap (·.fallback)).mapM fun name ↦
    return (← IO.getEnv name).map (name, ·)
  return found.filterMap id

/-- The bytes of a file, if it can be read. -/
def readFile? (path : String) : IO (Option (List UInt8)) := do
  try return some (← IO.FS.readBinFile path).toList
  catch _ => return none

/-- Reads files until the program looks at no other. -/
partial def readFiles (i : Invocation) (tried : List String) : IO Invocation := do
  let paths := i.paths.filter (!tried.contains ·)
  if paths.isEmpty then return i
  let found ← paths.mapM fun path ↦ return (← readFile? path).map (path, ·)
  readFiles { i with files := ⟨i.files.entries ++ found.filterMap id⟩ } (paths ++ tried)

/-- What an entry meets on a machine without a network. No message is ever asked for there, so the
clock stands still. -/
def offline : Surroundings where
  network := Session.Network.down
  clock _ := .at 0 ""

end CallCheck

open CallCheck in
/-- Runs the program. -/
def main (arguments : List String) : IO UInt32 := do
  let invocation ← readFiles { arguments, inherited := ← readVariables } []
  let answer := invocation.run fun _ ↦ offline
  for line in answer.output do IO.println line
  for line in answer.complaint do IO.eprintln line
  return UInt32.ofNat answer.code

import VirtineCleaning.CommandLine.Program

/-!
# The executable

Reads the environment and the configuration document, has the command line carried out, and prints what it answers.
-/

namespace VirtineCleaning.CommandLine

/-- The values of the variables that the command line knows. -/
def readEnvironment : IO (String → Option String) := do
  let known := Invocation.filterVariable :: Setting.all.filterMap Setting.variableName
  let values ← known.mapM fun name => do return (name, ← IO.getEnv name)
  return fun name => (values.lookup name).join

/-- The source of the configuration that a command line names. -/
def readSource (path : Option String) : IO Config.Source :=
  match path with
  | none => return .defaults
  | some path => do
    try return .document (← IO.FS.readBinFile path)
    catch _ => return .unreadable

/-- What a command line answers in this environment. -/
def answer (arguments : List String) : IO Outcome := do
  let environment ← readEnvironment
  match Invocation.ofArguments environment arguments with
  | .error stop => return stop.outcome environment
  | .ok i =>
    let source ← if i.needsConfig then readSource i.config else pure .defaults
    return i.perform source

/-- The exit code that stands for an end that the system put to a program. -/
def killedCode : Nat := 134

end VirtineCleaning.CommandLine

/-- Carries out the command line. -/
def main (arguments : List String) : IO UInt32 := do
  let outcome ← VirtineCleaning.CommandLine.answer arguments
  (← IO.getStdout).putStr outcome.output
  unless outcome.complaint.isEmpty do
    (← IO.getStderr).putStrLn outcome.complaint
  return UInt32.ofNat (outcome.exitCode.getD VirtineCleaning.CommandLine.killedCode)

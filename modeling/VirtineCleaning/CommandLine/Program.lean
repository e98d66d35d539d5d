import VirtineCleaning.CommandLine.Help
import VirtineCleaning.Config.Document
import VirtineCleaning.LogFilter.Directive
import VirtineCleaning.Register.Table
import VirtineCleaning.Session.Basic

/-!
# The program

What a command line answers: an exit code, an output and a complaint. Misuse exits with two, and any other failure with
one, unless the program breaks down: where it gives itself up it exits with 101, and where the system puts an end to it
there is no exit code. A log filter that divides a character is one cause, a valid configuration without the resources
for it the other. None of these writes to the output, except that a session whose virtines do not hold the snapshot
reports itself first.
-/

namespace VirtineCleaning.CommandLine

/-- What a run of the program leaves behind. -/
structure Outcome where
  /-- Missing where the system put an end to the program. -/
  exitCode : Option Nat := some 0
  output : String := ""
  complaint : String := ""
deriving DecidableEq, Repr

/-- A failure that wrote nothing. -/
def Outcome.failure (complaint : String) : Outcome := { exitCode := some 1, complaint }

/-- The program broke down. -/
def Outcome.ofBreakdown (complaint : String) : Config.Breakdown → Outcome
  | .abort => { exitCode := some 101, complaint }
  | .killed => { exitCode := none, complaint }

/-- The program gave up a session, or broke down in it. -/
def Outcome.ofSession (failure : Session.Failure) : Outcome :=
  match failure with
  | .breakdown b => .ofBreakdown failure.message b
  | _ => .failure failure.message

/-- The word for a right in the register map. -/
def rightWord : Right → String
  | .read => "read"
  | .write => "write"
  | .sideEffect => "side-effect"

/-- The words for what accesses to a register may do. -/
def accessWords (r : Register) : List String := r.access.rights.map rightWord

/-- A row of the register map in columns. -/
def layoutRow (register offset width access : String) : String :=
  alignLeft 14 register ++ " " ++ alignRight 7 offset ++ " " ++ alignRight 6 width ++ "  " ++ access

/-- The register map in columns. -/
def layoutText : String :=
  endLines
    ([layoutRow "register" "offset" "width" "access"] ++
      (Field.table.map fun f =>
        layoutRow f.register.name ("0x" ++ Word.hexDigits f.offset) (toString f.width)
          (",".intercalate (accessWords f.register))) ++
      ["window size: 0x" ++ Word.hexDigits windowSize])

/-- The register map as JSON. -/
def layoutJson : Json :=
  .array (Field.table.map fun f =>
    .object [("name", .text f.register.name), ("offset", .number f.offset), ("width", .number f.width),
      ("access", .array ((accessWords f.register).map .text))])

/-- What a device says of itself, in lines. -/
def identityText (i : Session.Identity) : String :=
  endLines
    ["max virtines:  " ++ toString i.maxVirtines.toNat, "batch factor:  " ++ toString i.batchFactor.toNat,
      "rq tail:       " ++ toString i.readyTail.toNat, "cq tail:       " ++ toString i.completeTail.toNat]

/-- What a device says of itself, as JSON. -/
def identityJson (i : Session.Identity) : Json :=
  .object
    [("max_virtines", .number i.maxVirtines.toNat), ("batch_factor", .number i.batchFactor.toNat),
      ("rq_tail", .number i.readyTail.toNat), ("cq_tail", .number i.completeTail.toNat),
      ("doorbell", .boolean i.doorbell), ("is_processing", .boolean i.isProcessing)]

/-- What a session did, in lines. -/
def summaryText (s : Session.Summary) : String :=
  endLines
    ["cleaned " ++ toString s.reclaimed ++ " virtine(s) in " ++ toString s.rounds ++ " round(s); "
        ++ toString s.notifications ++ " notification(s) at batch factor " ++ toString s.batchFactor.toNat,
      "memory " ++ if s.verified then "verified" else "MISMATCH"]

/-- What a session did, as JSON. -/
def summaryJson (s : Session.Summary) : Json :=
  .object
    [("virtines", .number s.virtines.toNat), ("batch_factor", .number s.batchFactor.toNat),
      ("snapshot_size", .number s.snapshotSize.toNat), ("rounds", .number s.rounds), ("reclaimed", .number s.reclaimed),
      ("notifications", .number s.notifications), ("notifications_delivered", .number s.notificationsDelivered),
      ("notifications_coalesced", .number s.notificationsCoalesced), ("copy_failures", .number s.copyFailures),
      ("verified", .boolean s.verified)]

/-- JSON as the program prints it. -/
def jsonText (j : Json) : String := j.pretty ++ "\n"

/-- The wording of a configuration that was not loaded. -/
def loadComplaint (path : String) : Config.LoadError → String
  | .unreadable => "invalid configuration: failed to read config file " ++ path
  | .malformed => "invalid configuration: failed to parse config file " ++ path
  | .invalid e => "invalid configuration: " ++ e.message

/-- The report of a session; virtines that do not hold the snapshot make it a failure. -/
def reportSession (json : Bool) (s : Session.Summary) : Outcome where
  exitCode := some (if s.verified then 0 else 1)
  output := if json then jsonText (summaryJson s) else summaryText s
  complaint := if s.verified then "" else "cleaned virtines do not match the snapshot"

/-- Answers a reading of the command line that stopped. The output is no terminal: it takes the help as plain text. -/
def Stop.outcome (environment : String → Option String) : Stop → Outcome
  | .misuse => { exitCode := some 2, complaint := "usage: " ++ programName ++ " [OPTIONS] <COMMAND>" }
  | .help topic long => { output := Terminal.plain (helpText environment topic long) }
  | .version => { output := versionText }

namespace Invocation

/-- The configuration decides what the command does. The register map needs none. -/
def needsConfig (i : Invocation) : Bool := i.action ≠ .layout

/-- Carries out a command with a valid configuration. -/
def performWith (i : Invocation) (y : Session.System) (c : Config) : Outcome :=
  match i.action with
  | .layout => { output := if i.json then jsonText layoutJson else layoutText }
  | .probe =>
    match Session.probe y c with
    | .error e => .ofSession e
    | .ok identity => { output := if i.json then jsonText (identityJson identity) else identityText identity }
  | .run options =>
    match Session.run y c options with
    | .error e => .ofSession e
    | .ok (summary, _) => reportSession i.json summary

/-- Carries out a command, once its log filter is in place; `source` is where its configuration comes from. -/
def performLogged (i : Invocation) (y : Session.System) (source : Config.Source) : Outcome :=
  if i.needsConfig then
    match Config.load source i.overrides with
    | .error e => .failure (loadComplaint (i.config.getD "") e)
    | .ok c => i.performWith y c
  else i.performWith y {}

/-- Carries out a command on a system. A malformed log filter is none at all. -/
def performOn (i : Invocation) (y : Session.System) (source : Config.Source) : Outcome :=
  if i.logFilter.any LogFilter.isDivided then .ofBreakdown "log filter: a part divides a character" .abort
  else i.performLogged y source

/-- Carries out a command. -/
def perform (i : Invocation) (source : Config.Source) : Outcome := i.performOn .usual source

end Invocation

end VirtineCleaning.CommandLine

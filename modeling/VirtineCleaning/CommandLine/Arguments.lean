import VirtineCleaning.Config.Basic
import VirtineCleaning.Session.Layout

/-!
# Arguments

A command line names one command. Options stand before or behind it; those that every command knows may stand on
either side, and then the one behind wins. An option is given at most once on a side. Where a side does not give it,
an option may take its value from the environment, which loses against either side of the command line.

Arguments are read from left to right. The reading stops at the first misuse and at the first request for help or for
the version, whichever comes first; the value of an option counts as read when the next option is met.
-/

namespace VirtineCleaning.CommandLine

/-- A side of the command line: before the command, or behind one. -/
inductive Level where
  | top
  | layout
  | probe
  | run
deriving DecidableEq, Repr

/-- What there is help on. -/
inductive Topic where
  | level (level : Level)
  | help
deriving DecidableEq, Repr

/-- Why the arguments name nothing to carry out. -/
inductive Stop where
  | misuse
  | help (topic : Topic) (long : Bool)
  | version
deriving DecidableEq, Repr

/-- An option that takes a value. -/
inductive Setting where
  | config
  | batchFactor
  | memorySize
  | logLevel
  | virtines
  | snapshotSize
  | timeout
deriving DecidableEq, Repr

/-- The value of an option. -/
inductive Value where
  | text (s : String)
  | number (w : Word)
deriving DecidableEq, Repr

namespace Setting

/-- Every option that takes a value. -/
def all : List Setting := [.config, .batchFactor, .memorySize, .logLevel, .virtines, .snapshotSize, .timeout]

/-- The name of an option, after its two dashes. -/
def name : Setting → String
  | .config => "config"
  | .batchFactor => "batch-factor"
  | .memorySize => "memory-size"
  | .logLevel => "log-level"
  | .virtines => "virtines"
  | .snapshotSize => "snapshot-size"
  | .timeout => "timeout-ms"

/-- The variable that an option may take its value from. -/
def variableName : Setting → Option String
  | .config => some "VIRTINE_CONFIG"
  | .batchFactor => some "VIRTINE_BATCH_FACTOR"
  | .logLevel => some "VIRTINE_LOG_LEVEL"
  | _ => none

/-- The option is known on every side, and its value belongs to the whole command line. -/
def isGlobal : Setting → Bool
  | .config | .batchFactor | .memorySize | .logLevel => true
  | _ => false

/-- The option is known on a side. -/
def knownAt (s : Setting) (level : Level) : Bool := s.isGlobal || level = .run

/-- The value that a text gives to an option. -/
def parse? : Setting → String → Option Value
  | .config, s => if s.isEmpty then none else some (.text s)
  | .logLevel, s => some (.text s)
  | _, s => (Word.parse? s).map .number

end Setting

/-- An option that waits for its value, or for its value to be read. -/
inductive Pending where
  | nothing
  | awaiting (s : Setting)
  | holding (s : Setting) (raw : String)
deriving DecidableEq, Repr

/-- What one side of the command line has given so far. -/
structure Side where
  values : List (Setting × Value) := []
  json : Bool := false
  pending : Pending := .nothing
deriving DecidableEq, Repr

namespace Side

/-- Gives a value to an option that has none yet. -/
def store (side : Side) (s : Setting) (raw : String) : Except Stop Side :=
  match side.values.lookup s, s.parse? raw with
  | none, some value => .ok { side with values := (s, value) :: side.values }
  | _, _ => .error .misuse

/-- Reads the value that is waiting to be read. -/
def resolve (side : Side) : Except Stop Side :=
  match side.pending with
  | .nothing => .ok side
  | .awaiting _ => .error .misuse
  | .holding s raw => { side with pending := .nothing }.store s raw

/-- Takes an option by name, with the value that is attached to it, if any. -/
def takeLong (level : Level) (side : Side) (name : String) (attached : Option String) : Except Stop Side := do
  match Setting.all.find? (fun s => s.name = name && s.knownAt level), attached with
  | some s, some raw => (← side.resolve).store s raw
  | some s, none => return { ← side.resolve with pending := .awaiting s }
  | none, some _ => throw .misuse
  | none, none =>
    if name = "help" then
      let _ ← side.resolve
      throw (.help (.level level) true)
    else if name = "version" && level = .top then
      let _ ← side.resolve
      throw .version
    else if name = "json" && level ≠ .top then
      let side ← side.resolve
      if side.json then throw .misuse else return { side with json := true }
    else throw .misuse

/-- Takes an option of one letter. -/
def takeShort (level : Level) (side : Side) (letter : Char) : Except Stop Side := do
  let _ ← if letter = 'h' || letter = 'V' && level = .top then side.resolve else throw .misuse
  throw (if letter = 'h' then .help (.level level) false else .version)

/-- Takes one argument that is neither a command nor the mark that ends the options. -/
def take (level : Level) (side : Side) (argument : String) : Except Stop Side :=
  match argument.toList with
  | '-' :: '-' :: rest =>
    let name := rest.takeWhile (· ≠ '=')
    let attached :=
      match rest.dropWhile (· ≠ '=') with
      | _ :: value => some (String.ofList value)
      | [] => none
    side.takeLong level (String.ofList name) attached
  | '-' :: letter :: _ => side.takeShort level letter
  | _ =>
    match side.pending with
    | .awaiting s => .ok { side with pending := .holding s argument }
    | _ => .error .misuse

/-- The command that a word names. -/
def command? : String → Option Topic
  | "layout" => some (.level .layout)
  | "probe" => some (.level .probe)
  | "run" => some (.level .run)
  | "help" => some .help
  | _ => none

/-- A command may stand here: before any command, where no option waits for its value. -/
def awaitsCommand (level : Level) (side : Side) : Bool :=
  match level, side.pending with
  | .top, .awaiting _ => false
  | .top, _ => true
  | _, _ => false

/-- The help that the words after a request for help ask for. -/
def helpTopic : List String → Stop
  | [] => .help (.level .top) true
  | [word] =>
    match command? word with
    | some topic => .help topic true
    | none => .misuse
  | _ => .misuse

/-- Reads one side, up to a command or to the end; the arguments behind the command are left. -/
def scan (level : Level) (side : Side) : List String → Except Stop (Side × Option (Level × List String))
  | [] => return (side, none)
  | "--" :: rest => if rest.isEmpty then return (side, none) else throw .misuse
  | argument :: rest =>
    match if side.awaitsCommand level then command? argument else none with
    | some (.level command) => return (side, some (command, rest))
    | some .help => throw (helpTopic rest)
    | none => do
      let side ← side.take level argument
      scan level side rest

/-- Ends a side: the last value is read, and the environment gives values to options that have none. -/
def finish (environment : String → Option String) (side : Side) : Except Stop (Side × List (Setting × Value)) := do
  let side ← side.resolve
  let given ← (Setting.all.filter (side.values.lookup · |>.isNone)).foldlM
    (fun values s =>
      match s.variableName.bind environment with
      | none => return values
      | some raw =>
        match s.parse? raw with
        | some value => return (s, value) :: values
        | none => throw .misuse)
    []
  return (side, given)

end Side

/-- The commands that carry something out. -/
inductive Action where
  | layout
  | probe
  | run (options : Session.Options)
deriving DecidableEq, Repr

/-- What a command line asks for. -/
structure Invocation where
  action : Action
  json : Bool
  /-- The path of a configuration document. -/
  config : Option String
  logFilter : Option String
  overrides : Config.Overrides
deriving DecidableEq, Repr

namespace Invocation

/-- The number among the values of an option. -/
def number? (values : List (Setting × Value)) (s : Setting) : Option Word :=
  match values.lookup s with
  | some (.number w) => some w
  | _ => none

/-- The text among the values of an option. -/
def text? (values : List (Setting × Value)) (s : Setting) : Option String :=
  match values.lookup s with
  | some (.text t) => some t
  | _ => none

/-- The variable that a log filter is taken from where no option gives one. -/
def filterVariable : String := "RUST_LOG"

/-- What a command carries out, given the values of its options. -/
def actionOf (values : List (Setting × Value)) : Level → Action
  | .top | .layout => .layout
  | .probe => .probe
  | .run =>
    let defaults : Session.Options := {}
    .run {
      virtines := (number? values .virtines).getD defaults.virtines
      snapshotSize := (number? values .snapshotSize).getD defaults.snapshotSize }

/-- Reads a command line. Values behind the command come first, then those before it, then the environment's. -/
def ofArguments (environment : String → Option String) (arguments : List String) : Except Stop Invocation := do
  let (before, command) ← Side.scan .top {} arguments
  match command with
  | none => throw .misuse
  | some (level, rest) =>
    let (behind, _) ← Side.scan level {} rest
    let (behind, _) ← behind.finish environment
    let (before, inherited) ← before.finish environment
    let values := behind.values ++ before.values ++ inherited
    return {
      action := actionOf values level
      json := behind.json
      config := text? values .config
      logFilter := (text? values .logLevel).or (environment filterVariable)
      overrides := { batchFactor := number? values .batchFactor, memorySize := number? values .memorySize } }

end Invocation

end VirtineCleaning.CommandLine

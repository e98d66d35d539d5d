import VirtineCleaning.CommandLine.Arguments
import VirtineCleaning.CommandLine.Terminal

/-!
# Help

The help of each side of the command line, in a short layout with one line for each option and a long one with a
paragraph or more. Options are listed by their rank, the order in which their side or the whole command line declares
them; of two with one rank, by name. The help is text for a terminal: names of options are bold, and variables are shown
with whatever they hold. A text that is too wide for its column is written whole.
-/

namespace VirtineCleaning.CommandLine

/-! ## Columns -/

/-- As many blanks as asked for. -/
def blanks (n : Nat) : String := String.ofList (List.replicate n ' ')

/-- A text at the left of a column. -/
def alignLeft (width : Nat) (s : String) : String := s ++ blanks (width - s.length)

/-- A text at the right of a column. -/
def alignRight (width : Nat) (s : String) : String := blanks (width - s.length) ++ s

/-- A text whose lines after the first start at a depth. -/
def indentTail (depth : Nat) (s : String) : String := s.replace "\n" ("\n" ++ blanks depth)

/-- Lines, each ended. -/
def endLines (lines : List String) : String := String.join (lines.map (· ++ "\n"))

/-! ## Entries -/

/-- The name of the program. -/
def programName : String := "virtine-ctl"

/-- The text that answers a request for the version. -/
def versionText : String := programName ++ " 0.1.0\n"

/-- An option as the help shows it. -/
structure Entry where
  rank : Nat
  /-- The name of the option, after its two dashes. -/
  name : String
  /-- The word for its value, if it takes one. -/
  value : Option String := none
  brief : String := ""
  /-- The paragraphs of the long layout, where they say more than the brief text. -/
  paragraphs : List String := []
  fromVariable : Option String := none
  default : Option String := none

namespace Entry

/-- An option that every command knows. -/
def global : List Entry :=
  [{ rank := 0, name := "config", value := some "PATH"
     brief := "JSON device configuration file; flags override its values"
     paragraphs := ["JSON device configuration file; flags override its values.",
       "Environment variable: \x60VIRTINE_CONFIG\x60."]
     fromVariable := some "VIRTINE_CONFIG" },
   { rank := 1, name := "batch-factor", value := some "N"
     brief := "Virtines cleaned per completion notification"
     paragraphs := ["Virtines cleaned per completion notification.",
       "Environment variable: \x60VIRTINE_BATCH_FACTOR\x60."]
     fromVariable := some "VIRTINE_BATCH_FACTOR" },
   { rank := 2, name := "memory-size", value := some "BYTES"
     brief := "Size of the simulated virtine memory in bytes" },
   { rank := 3, name := "log-level", value := some "LOG_LEVEL"
     brief := "Log filter (tracing-subscriber EnvFilter syntax); falls back to \x60RUST_LOG\x60, then \x60info\x60"
     paragraphs :=
       ["Log filter (tracing-subscriber EnvFilter syntax); falls back to \x60RUST_LOG\x60, then \x60info\x60.",
         "Environment variable: \x60VIRTINE_LOG_LEVEL\x60."]
     fromVariable := some "VIRTINE_LOG_LEVEL" }]

/-- The switch for output as JSON. -/
def json (rank : Nat) : Entry := { rank, name := "json" }

/-- The options of one side alone. -/
def own : Level → List Entry
  | .top => []
  | .layout | .probe => [json 0]
  | .run =>
    [{ rank := 0, name := "virtines", value := some "VIRTINES", brief := "Number of virtines to clean"
       default := some "100" },
     { rank := 1, name := "snapshot-size", value := some "BYTES", brief := "Snapshot size in bytes"
       default := some "4096" },
     { rank := 2, name := "timeout-ms", value := some "MS", brief := "Per-round wait limit in milliseconds"
       default := some "10000" },
     json 3]

/-- One option comes before another. -/
def before (a b : Entry) : Bool := a.rank < b.rank || (a.rank == b.rank && !decide (b.name < a.name))

/-- The options of a side with a value or a meaning of its own, in the order of the list. -/
def listed (level : Level) : List Entry := (global ++ own level).mergeSort before

/-- The variable and the default of an option. -/
def remarks (environment : String → Option String) (e : Entry) : List String :=
  (e.fromVariable.map fun v => "[env: " ++ v ++ "=" ++ (environment v).getD "" ++ "]").toList ++
    (e.default.map fun d => "[default: " ++ d ++ "]").toList

/-- The option with its value, where it has no short form beside it. -/
def usage (e : Entry) : String :=
  blanks 4 ++ Terminal.bold ("--" ++ e.name) ++ (e.value.map fun v => " <" ++ v ++ ">").getD ""

/-- The text of the short layout. -/
def short (environment : String → Option String) (e : Entry) : String :=
  " ".intercalate (([e.brief].filter (! ·.isEmpty)) ++ e.remarks environment)

/-- The text of the long layout. -/
def long (environment : String → Option String) (e : Entry) : String :=
  let remarks := "\n".intercalate (e.remarks environment)
  let paragraphs := if e.paragraphs.isEmpty then [e.brief] else e.paragraphs
  "\n\n".intercalate ((paragraphs ++ [remarks]).filter (! ·.isEmpty))

end Entry

/-- The commands and what each one does. -/
def commands : List (String × String) :=
  [("layout", "Print the register window layout"),
   ("probe", "Attach a simulated device and read its identity registers"),
   ("run", "Give virtines to a simulated device, wait for them to be cleaned, and verify their memory"),
   ("help", "Print this message or the help of the given subcommand(s)")]

/-- The word for a side. -/
def Level.word : Level → String
  | .top => ""
  | .layout => "layout"
  | .probe => "probe"
  | .run => "run"

/-- The options that ask for help and for the version, with their texts. -/
def requests (level : Level) (long : Bool) : List (String × String) :=
  let both (short name : String) := Terminal.bold short ++ ", " ++ Terminal.bold name
  (both "-h" "--help", if long then "Print help (see a summary with '-h')" else "Print help (see more with '--help')")
    :: if level = .top then [(both "-V" "--version", "Print version")] else []

/-- The lines of the options of a side. Where a text has several lines, the later ones are as deep as the first. -/
def optionLines (environment : String → Option String) (level : Level) (long : Bool) : List String :=
  let shown (e : Entry) := (e.usage, if long then e.long environment else e.short environment)
  let all := (Entry.listed level).map shown ++ requests level long
  if long then
    List.intercalate [""] (all.map fun (usage, text) => ["  " ++ usage, blanks 10 ++ indentTail 10 text])
  else
    let width := (all.map (Terminal.width ·.1)).foldl max 0 + 2
    all.map fun (usage, text) =>
      "  " ++ usage ++ blanks (width - Terminal.width usage) ++ indentTail (width + 2) text

/-- The help on a topic. -/
def helpText (environment : String → Option String) (topic : Topic) (long : Bool) : String :=
  match topic with
  | .help =>
    endLines [(commands.lookup "help").getD "", "", "Usage: " ++ programName ++ " help [COMMAND]...", "", "Arguments:",
      "  [COMMAND]...  Print help for the subcommand(s)"]
  | .level .top =>
    endLines
      (["Inspect the virtine coprocessor register map and run simulated cleaning sessions.", "",
        "Usage: " ++ programName ++ " [OPTIONS] <COMMAND>", "", "Commands:"] ++
        (commands.map fun (word, text) => "  " ++ alignLeft 8 word ++ text) ++ ["", "Options:"] ++
        optionLines environment .top long)
  | .level level =>
    endLines
      ([(commands.lookup level.word).getD "", "", "Usage: " ++ programName ++ " " ++ level.word ++ " [OPTIONS]", "",
        "Options:"] ++ optionLines environment level long)

end VirtineCleaning.CommandLine

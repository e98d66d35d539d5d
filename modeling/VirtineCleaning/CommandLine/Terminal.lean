/-!
# Terminal text

Text for a terminal carries control sequences between its characters: an escape character opens one, and its kind says
what ends it. Where text goes elsewhere, the sequences are taken out, whoever put them in, and so are the control
characters that are not blanks. `plain_eq_self` says that nothing else is lost.
-/

namespace VirtineCleaning.CommandLine.Terminal

/-- Where a reader of terminal text stands. -/
inductive State where
  /-- Outside every sequence. -/
  | ground
  /-- After an escape character. -/
  | escape
  | escapeIntermediate
  /-- Inside a sequence of parameters that a final letter ends. -/
  | parameters
  /-- At the head of a device control string, which has parameters of its own. -/
  | deviceHead
  | deviceParameters
  | deviceIntermediate
  /-- Inside a command to the operating system, which the bell ends. -/
  | systemCommand
  /-- Inside a string that has an ending byte of its own. -/
  | controlString
deriving DecidableEq, Repr

/-- A control character that leaves a blank. -/
def isBlankControl (c : Char) : Bool := c = '\t' || c = '\n' || c = '\x0c' || c = '\r'

/-- A character that is shown outside every sequence: a blank, or any that is no control character of ASCII. -/
def isVisible (c : Char) : Bool := isBlankControl c || (' ' ≤ c && c ≠ '\x7f')

/-- The byte that ends a control string is among the bytes of the character. -/
def endsControlString (c : Char) : Bool := (String.utf8EncodeChar c).contains 0x9c

namespace State

/-- The state after a character that is not shown. -/
def next (s : State) (c : Char) : State :=
  if c = '\x18' ∨ c = '\x1a' then .ground
  else if c = '\x1b' then .escape
  else
    match s with
    | .ground => .ground
    | .escape =>
      if ' ' ≤ c ∧ c ≤ '/' then .escapeIntermediate
      else if c = '[' then .parameters
      else if c = ']' then .systemCommand
      else if c = 'P' then .deviceHead
      else if c = 'X' ∨ c = '^' ∨ c = '_' then .controlString
      else if '0' ≤ c ∧ c ≤ '~' then .ground
      else .escape
    | .escapeIntermediate => if '0' ≤ c ∧ c ≤ '~' then .ground else .escapeIntermediate
    | .parameters => if '@' ≤ c ∧ c ≤ '~' then .ground else .parameters
    | .deviceHead =>
      if ' ' ≤ c ∧ c ≤ '/' then .deviceIntermediate
      else if '0' ≤ c ∧ c ≤ '?' then .deviceParameters
      else if '@' ≤ c ∧ c ≤ '~' then .controlString
      else .deviceHead
    | .deviceParameters =>
      if ' ' ≤ c ∧ c ≤ '/' then .deviceIntermediate
      else if '<' ≤ c ∧ c ≤ '~' then .controlString
      else .deviceParameters
    | .deviceIntermediate => if '0' ≤ c ∧ c ≤ '~' then .controlString else .deviceIntermediate
    | .systemCommand => if c = '\x07' then .ground else .systemCommand
    | .controlString => if endsControlString c then .ground else .controlString

/-- A blank may interrupt what is being read here. Strings keep theirs to themselves. -/
def isInterruptible : State → Bool
  | .ground | .escape | .escapeIntermediate | .parameters => true
  | _ => false

end State

/-- A reader of terminal text. -/
structure Reader where
  state : State := .ground
  /-- A blank was shown in the middle of a sequence; what follows is shown too, up to the next control character. -/
  interrupted : Bool := false
  /-- The characters shown so far, last first. -/
  shown : List Char := []

namespace Reader

/-- The reader shows a character. -/
def shows (r : Reader) (c : Char) : Bool :=
  isVisible c && (r.state = .ground || r.interrupted || (isBlankControl c && r.state.isInterruptible))

/-- Takes one character. One beyond ASCII ends the sequence that a blank had interrupted. -/
def take (r : Reader) (c : Char) : Reader :=
  if r.shows c then
    { state := if c ≤ '\x7f' then r.state else .ground, interrupted := true, shown := c :: r.shown }
  else { r with state := r.state.next c, interrupted := false }

end Reader

/-- The text without its control sequences. -/
def plain (s : String) : String := String.ofList (s.toList.foldl Reader.take {}).shown.reverse

/-- The number of characters that a text shows. -/
def width (s : String) : Nat := (plain s).length

/-- The text in bold. -/
def bold (s : String) : String := "\x1b[1m" ++ s ++ "\x1b[0m"

/-- Outside every sequence, visible characters are shown as they come. -/
theorem shown_foldl_take {cs : List Char} (h : ∀ c ∈ cs, isVisible c) (r : Reader) (hr : r.state = .ground) :
    (cs.foldl Reader.take r).shown = cs.reverse ++ r.shown := by
  induction cs generalizing r with
  | nil => rfl
  | cons c cs ih =>
    have hc : r.shows c := by simp [Reader.shows, hr, h c (by simp)]
    have htake : r.take c = { state := .ground, interrupted := true, shown := c :: r.shown } := by
      simp [Reader.take, hc, hr]
    rw [List.foldl_cons, htake, ih (fun d hd => h d (List.mem_cons_of_mem c hd)) _ rfl]
    simp

/-- Text of visible characters is plain. -/
theorem plain_eq_self {s : String} (h : ∀ c ∈ s.toList, isVisible c) : plain s = s := by
  simp [plain, shown_foldl_take h {} rfl]

end VirtineCleaning.CommandLine.Terminal

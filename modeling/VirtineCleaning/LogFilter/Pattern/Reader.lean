import VirtineCleaning.LogFilter.Pattern.Class
import VirtineCleaning.Text.Alphanumeric
import VirtineCleaning.Text.Class

/-!
# Reading patterns

A pattern is read character by character. A character that cannot go on from where the reader stands refuses the text,
and so does an end inside a group, a class or an escape.

Classes, cases and the edges of words are known for ASCII alone: what asks for those of Unicode is refused. A counted
repetition is no pattern here, because what would close it closes the field that the pattern stands in.
-/

namespace VirtineCleaning.LogFilter.Pattern

open Text

/-- The control character that an escape stands for. -/
def control? : Char → Option Char
  | 'a' => some '\x07'
  | 't' => some '\t'
  | 'n' => some '\n'
  | 'v' => some '\x0b'
  | 'f' => some '\x0c'
  | 'r' => some '\r'
  | _ => none

/-- The character may stand in the name of a group. -/
def continuesName (read : List Char) (c : Char) : Bool :=
  c = '_' || if read.isEmpty then isAlphabetic c else c = '.' || c = '[' || c = ']' || isAlphanumeric c

namespace Reader

/-- Takes the character behind a backslash. -/
def takeEscape (r : Reader) (place : Place) (c : Char) : Option Reader :=
  match control? c with
  | some control => r.takeCharacter place control.toNat
  | none =>
    if c = 'x' then some { r with mode := .code place true 2 0 }
    else if c = 'u' then some { r with mode := .code place false 4 0 }
    else if c = 'U' then some { r with mode := .code place false 8 0 }
    else if c = 'd' ∨ c = 's' ∨ c = 'w' then (if r.flags.unicode then none else r.takeSet place)
    else if c = 'A' ∨ c = 'z' then (if place = .outside then some (r.pass 0) else none)
    else if c = 'b' ∨ c = 'B' ∨ c = '<' ∨ c = '>' then
      (if place = .outside ∧ !r.flags.unicode then some (r.pass 0) else none)
    else if c ≤ '\x7f' ∧ !c.isAlphanum then r.takeCharacter place c.toNat
    else none

/-- Takes a hexadecimal digit of a character. A byte beyond ASCII is a part of a character. -/
def takeDigit (r : Reader) (place : Place) (byte : Bool) (left value : Nat) (c : Char) : Option Reader :=
  (hexValue? c).bind fun digit =>
    let value := 16 * value + digit
    if 1 < left then some { r with mode := .code place byte (left - 1) value }
    else if value.isValidChar ∧ !(byte ∧ !r.flags.unicode ∧ 0x7f < value) then r.takeCharacter place value
    else none

/-- Takes a letter of flags, or what ends them. Flags without a group are an item that cannot be repeated. -/
def takeFlag (r : Reader) (given : List Char) (next : Flags) (c : Char) : Option Reader :=
  let value := !given.contains '-'
  if c = ':' ∨ c = ')' then
    if given.head? = some '-' ∨ c = ')' ∧ given.isEmpty then none
    else if c = ':' then some (r.openGroup next)
    else some { r with mode := .between false, flags := next, items := 0 :: r.items }
  else if given.contains c then none
  else if c = 'i' then some { r with mode := .flags (c :: given) { next with ignoreCase := value } }
  else if c = 'x' then some { r with mode := .flags (c :: given) { next with verbose := value } }
  else if c = 'u' then some { r with mode := .flags (c :: given) { next with unicode := value } }
  else if ['-', 'm', 's', 'U', 'R'].contains c then some { r with mode := .flags (c :: given) next }
  else none

/-- Takes a character between items. -/
def takeItem (r : Reader) (repeatable : Bool) (c : Char) : Option Reader :=
  match c with
  | '(' => some { r with mode := .opened }
  | ')' => r.closeGroup
  | '|' => some r.endBranch
  | '?' | '*' | '+' => if repeatable then some r.repeatLast else none
  | '\x7b' => none
  | '[' => some r.openClass
  | '\\' => some { r with mode := .escape .outside }
  | '.' => if r.flags.unicode then some (r.pass 0) else none
  | '^' | '$' => some (r.pass 0)
  | _ => r.takeCharacter .outside c.toNat

/-- Takes a character that is not skipped; `rest` is what follows it. -/
def takeShown (r : Reader) (c : Char) (rest : List Char) : Option Reader :=
  match r.mode with
  | .between repeatable => r.takeItem repeatable c
  | .repeated => if c = '?' then some { r with mode := .between true } else r.takeItem true c
  | .opened => if c = '?' then some { r with mode := .asked } else (r.openGroup r.flags).takeItem false c
  | .asked =>
    if c = 'P' then some { r with mode := .announced }
    else if c = '<' then some { r with mode := .name [] }
    else r.takeFlag [] r.flags c
  | .announced => if c = '<' then some { r with mode := .name [] } else none
  | .name read =>
    if c = '>' then
      if read.isEmpty ∨ r.names.contains read then none
      else some ({ r with names := read :: r.names }.openGroup r.flags)
    else if continuesName read c then some { r with mode := .name (c :: read) }
    else none
  | .flags given next => r.takeFlag given next c
  | .escape place => r.takeEscape place c
  | .code place byte left value => r.takeDigit place byte left value c
  | .inClass mode => r.takeInClass mode c rest

/-- The reader skips blanks and comments here. -/
def skips (r : Reader) : Bool :=
  r.flags.verbose &&
    match r.mode with
    | .asked | .announced | .name _ | .flags .. | .escape _ => false
    | _ => true

/-- Skips a character. It parts a mark of repetition from a question mark. -/
def skip (r : Reader) : Reader := if r.mode = .repeated then { r with mode := .between true } else r

/-- Takes one character; `rest` is what follows it. -/
def take (r : Reader) (c : Char) (rest : List Char) : Option Reader :=
  if r.comment then some { r with comment := c ≠ '\n' }
  else if r.skips && isBlank c then some r.skip
  else if r.skips && c = '#' then some { r.skip with comment := true }
  else r.takeShown c rest

/-- Takes all characters of a text. -/
def takeAll (r : Reader) : List Char → Option Reader
  | [] => some r
  | c :: rest => (r.take c rest).bind (·.takeAll rest)

end Reader

/-- The text is a pattern. -/
def isPattern (cs : List Char) : Bool := (Reader.takeAll {} cs).any Reader.isComplete

end VirtineCleaning.LogFilter.Pattern

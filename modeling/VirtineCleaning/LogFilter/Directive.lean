import VirtineCleaning.LogFilter.Value
import VirtineCleaning.Text.Bytes
import VirtineCleaning.Word

/-!
# Directives

A log filter is a list of directives between commas. A directive is a level or a target; a target may have a span in
brackets, a span a field in braces, and either of them a level behind an equals sign.

Blanks around a directive do not count for its marks. Its parts, though, are cut from the whole text, blanks included,
at the bytes where the marks stand without them: blanks in front shift every part, and a part may then begin or end
inside a character. Such a directive is not malformed but divided, and nothing can be made of a filter that has one.
-/

namespace VirtineCleaning.LogFilter

open Text

/-- What is wrong with a filter. -/
inductive Fault where
  | malformed
  /-- A part begins or ends inside a character. -/
  | divided
deriving DecidableEq, Repr

/-- The words for levels. -/
def levelNames : List String := ["error", "warn", "info", "debug", "trace", "off"]

/-- The text is a level: one of the words, or a number up to five. -/
def isLevel (s : String) : Bool := (Word.parse? s).any (· ≤ 5) || levelNames.contains s.toLower

/-- The text is the name of a field, or a name and a value. -/
def isField (cs : List Char) : Bool :=
  match cs.dropWhile (· ≠ '=') with
  | [] => !cs.isEmpty
  | _ :: rest => isValue (rest.takeWhile (· ≠ '='))

namespace Directive

/-- What a reader of a directive is in the middle of, and where that started. -/
inductive State where
  | start
  | target
  | span (start : Nat)
  | field (start : Nat)
  /-- Behind the closing brace. -/
  | fields
  /-- Behind the closing bracket. -/
  | closed
  | level (start : Nat)
deriving DecidableEq, Repr

/-- The part of a text between two places. -/
def part (text : List Char) (first last : Nat) : Except Fault (List Char) :=
  match cutBytes? text first last with
  | some cs => .ok cs
  | none => .error .divided

namespace State

/-- The state after the part up to `last`, if there is such a part. -/
def after (next : State) (text : List Char) (first last : Nat) : Except Fault State :=
  (part text first last).map fun _ => next

/-- The state after the character `c` at `place`. -/
def next (text : List Char) (place : Nat) (c : Char) : State → Except Fault State
  | .start =>
    if c = '[' then .ok (.span (place + 1))
    else if c = '-' ∨ c = ':' ∨ c = '_' ∨ isAlphanumeric c then .ok .target
    else .error .malformed
  | .target =>
    if c = '=' then after (.level (place + 1)) text 0 place
    else if c = '[' then after (.span (place + 1)) text 0 place
    else .ok .target
  | .span first =>
    if c = ']' then after .closed text first place
    else if c = '\x7b' then after (.field (place + 1)) text first place
    else .ok (.span first)
  | .field first =>
    if c = '\x7d' then do
      if isField (← part text first place) then return .fields else throw .malformed
    else .ok (.field first)
  | .fields => if c = ']' then .ok .closed else .error .malformed
  | .closed => if c = '=' then .ok (.level (place + 1)) else .error .malformed
  | .level first => .ok (.level first)

/-- Ends a directive. A level may be left out. -/
def finish (text : List Char) : State → Except Fault Unit
  | .target | .closed => .ok ()
  | .level first => do
    let level ← part text first (byteCount text)
    if level.isEmpty || isLevel (String.ofList level) then return () else throw .malformed
  | _ => .error .malformed

end State

/-- Reads the characters from `place` on. -/
def scan (text : List Char) : (place : Nat) → State → List Char → Except Fault State
  | _, s, [] => .ok s
  | place, s, c :: cs => do scan text (place + c.utf8Size) (← s.next text place c) cs

/-- Checks one directive. -/
def check (text : List Char) : Except Fault Unit := do (← scan text 0 .start (trim text)).finish text

end Directive

/-- Checks a filter up to its first fault. Empty directives are passed over. -/
def check (filter : String) : Except Fault Unit :=
  (((filter.splitOn ",").map String.toList).filter (! ·.isEmpty)).forM Directive.check

/-- The first fault of the filter is a divided part. -/
def isDivided (filter : String) : Bool :=
  match check filter with
  | .error .divided => true
  | _ => false

end VirtineCleaning.LogFilter

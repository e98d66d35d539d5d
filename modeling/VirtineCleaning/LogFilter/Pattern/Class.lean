import VirtineCleaning.LogFilter.Pattern.Basic
import VirtineCleaning.Text.Class

/-!
# Classes of characters

A class in brackets holds characters, ranges, named classes, classes of its own and operators between these. A dash
makes a range of its neighbours, unless what follows it closes the class or is a dash too. What follows is looked for
behind blanks where these are skipped, and behind a number sign, but not behind the comment that the sign opens.

Without Unicode a class holds bytes of ASCII alone, so the complement of a class is refused.
-/

namespace VirtineCleaning.LogFilter.Pattern

open Text

/-- The classes that have names. -/
def classNames : List String :=
  ["alnum", "alpha", "ascii", "blank", "cntrl", "digit", "graph", "lower", "print", "punct", "space", "upper", "word",
    "xdigit"]

/-- A class with a name. -/
structure NamedClass where
  negated : Bool
  /-- The number of characters behind its opening bracket. -/
  length : Nat
deriving DecidableEq, Repr

/-- The class that text behind a bracket names. -/
def namedClass? : List Char → Option NamedClass
  | ':' :: rest =>
    let (negated, rest) :=
      match rest with
      | '^' :: rest => (true, rest)
      | all => (false, all)
    let name := rest.takeWhile (· ≠ ':')
    match rest.dropWhile (· ≠ ':') with
    | ':' :: ']' :: _ =>
      if classNames.contains (String.ofList name) then some ⟨negated, name.length + if negated then 4 else 3⟩ else none
    | _ => none
  | _ => none

/-- The character that follows, as a dash looks for it. -/
def following? (verbose : Bool) (rest : List Char) : Option Char :=
  if verbose then
    match rest.dropWhile isBlank with
    | '#' :: more => (more.dropWhile isBlank).head?
    | shown => shown.head?
  else rest.head?

namespace Reader

/-- Passes an item that matches one character of several. -/
def takeSet (r : Reader) : Place → Option Reader
  | .outside => some (r.pass 0)
  | .member => some (r.passMember (.item none) 0)
  | .rangeEnd _ => none

/-- A class may hold the character. -/
def canHold (r : Reader) (code : Nat) : Bool := r.flags.unicode || code ≤ 0x7f

/-- Passes an item that matches one character. A range does not run backwards. -/
def takeCharacter (r : Reader) (place : Place) (code : Nat) : Option Reader :=
  if r.flags.foldsUnicode then none
  else
    match place with
    | .outside => some (r.pass 0)
    | .member => if r.canHold code then some (r.passMember (.item (some code)) 0) else none
    | .rangeEnd none => none
    | .rangeEnd (some start) =>
      if start ≤ code && r.canHold code then some { r with mode := .inClass .between } else none

/-- Passes a mark at the head of a class that stands for itself and starts no range. -/
def takeMark (r : Reader) (mode : ClassMode) : Option Reader :=
  if r.flags.foldsUnicode then none else some (r.passMember mode 0)

/-- Meets a class with a name. -/
def takeNamed (r : Reader) (c : NamedClass) : Option Reader :=
  if r.flags.foldsUnicode || (c.negated && !r.flags.unicode) then none
  else some (r.passMember (.named c.length) 0)

/-- Takes a character between the members of a class; `rest` is what follows it. -/
def takeMember (r : Reader) (c : Char) (rest : List Char) : Option Reader :=
  if c = '[' then
    match namedClass? rest with
    | some named => r.takeNamed named
    | none => some r.openClass
  else if c = ']' then r.closeClass
  else if (c = '&' ∨ c = '-' ∨ c = '~') ∧ rest.head? = some c then some r.operate
  else if c = '\\' then some { r with mode := .escape .member }
  else r.takeCharacter .member c.toNat

/-- Takes a character inside a class. A bracket that would close an empty class stands for itself. -/
def takeInClass (r : Reader) (mode : ClassMode) (c : Char) (rest : List Char) : Option Reader :=
  match mode with
  | .opened =>
    if c = '^' then (if r.flags.unicode then some { r with mode := .inClass .negated } else none)
    else if c = '-' then r.takeMark .dashes
    else if c = ']' then r.takeMark .between
    else r.takeMember c rest
  | .negated =>
    if c = '-' then r.takeMark .dashes
    else if c = ']' then r.takeMark .between
    else r.takeMember c rest
  | .dashes => if c = '-' then r.takeMark .dashes else r.takeMember c rest
  | .between => r.takeMember c rest
  | .operator => some { r with mode := .inClass .between }
  | .named left => some { r with mode := .inClass (if 1 < left then .named (left - 1) else .between) }
  | .item start =>
    let next := following? r.flags.verbose rest
    if c = '-' ∧ next ≠ some ']' ∧ next ≠ some '-' then some { r with mode := .inClass (.range start) }
    else r.takeMember c rest
  | .range start =>
    if c = '\\' then some { r with mode := .escape (.rangeEnd start) }
    else r.takeCharacter (.rangeEnd start) c.toNat

end Reader

end VirtineCleaning.LogFilter.Pattern

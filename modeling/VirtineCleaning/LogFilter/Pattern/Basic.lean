/-!
# Patterns

A pattern is a regular expression: alternatives, repetitions, groups, classes and escapes. Only whether a text is a
pattern matters here, so a reader of patterns keeps no tree. It keeps where it stands, what is open, and how deep the
tree would be.
-/

namespace VirtineCleaning.LogFilter.Pattern

/-- The depths of items that stand side by side, last first. -/
abbrev Row := List Nat

/-- The depth of a row: one item is as deep as it is, and several are one deeper than the deepest. -/
def Row.depth : Row → Nat
  | [] => 0
  | [depth] => depth
  | depths => depths.foldr max 0 + 1

/-- The deepest that a pattern may be. -/
def maxDepth : Nat := 250

/-- The flags that decide how a pattern is read. -/
structure Flags where
  /-- Upper and lower case are the same. -/
  ignoreCase : Bool := false
  /-- Blanks and comments are skipped. -/
  verbose : Bool := false
  /-- Characters are those of Unicode. Without it they are bytes, and nothing may match a part of a character. -/
  unicode : Bool := true
deriving DecidableEq, Repr

/-- Letters would have to be matched in either case, which is known for ASCII alone. -/
def Flags.foldsUnicode (f : Flags) : Bool := f.ignoreCase && f.unicode

/-- Where an item stands. -/
inductive Place where
  | outside
  /-- In a class. -/
  | member
  /-- At the end of a range in a class, whose start is a character unless it is a class itself. -/
  | rangeEnd (start : Option Nat)
deriving DecidableEq, Repr

/-- Where the reader stands in a class. -/
inductive ClassMode where
  /-- After the opening bracket. -/
  | opened
  /-- After the mark of negation. -/
  | negated
  /-- After dashes at the head of the class, which stand for themselves. -/
  | dashes
  | between
  /-- After the first character of an operator, which has two of them. -/
  | operator
  /-- Inside the name of a class, with so many characters to come. -/
  | named (left : Nat)
  /-- After an item that may start a range, if it is a character. -/
  | item (start : Option Nat)
  /-- After an item and the dash of a range. -/
  | range (start : Option Nat)
deriving DecidableEq, Repr

/-- What the reader is in the middle of. -/
inductive Mode where
  /-- Between items; what stands before may be repeated or not. -/
  | between (repeatable : Bool)
  /-- Right after a mark of repetition, where a question mark makes it a lazy one. -/
  | repeated
  /-- After an opening parenthesis. -/
  | opened
  /-- After an opening parenthesis and a question mark. -/
  | asked
  /-- After the letter that announces a name. -/
  | announced
  /-- Inside the name of a group. Its characters are held last first. -/
  | name (read : List Char)
  /-- Among the letters of flags; those behind the dash are taken back. -/
  | flags (given : List Char) (next : Flags)
  /-- After a backslash. -/
  | escape (place : Place)
  /-- Inside the hexadecimal digits of a character; `byte` where it is one of a byte. -/
  | code (place : Place) (byte : Bool) (left value : Nat)
  | inClass (mode : ClassMode)
deriving DecidableEq, Repr

/-- An open group: what it interrupts. -/
structure Group where
  flags : Flags
  items : Row
  branches : Row
deriving DecidableEq, Repr

/-- An open class. -/
structure OpenClass where
  /-- The members behind the last operator. -/
  members : Row := []
  /-- The depth of what stands before the last operator. -/
  operand : Option Nat := none
deriving DecidableEq, Repr

namespace OpenClass

/-- Adds a member. -/
def push (c : OpenClass) (depth : Nat) : OpenClass := { c with members := depth :: c.members }

/-- The depth of what the class holds. An operator is one deeper than its operands. -/
def depth (c : OpenClass) : Nat :=
  match c.operand with
  | none => c.members.depth
  | some operand => max operand c.members.depth + 1

/-- Makes all that the class holds the left operand of an operator. -/
def operate (c : OpenClass) : OpenClass := { operand := some c.depth }

end OpenClass

/-- A reader of patterns. -/
structure Reader where
  mode : Mode := .between false
  flags : Flags := {}
  /-- The items of the branch being read. -/
  items : Row := []
  /-- The branches before it. -/
  branches : Row := []
  /-- The open groups, innermost first. -/
  groups : List Group := []
  /-- The open classes, innermost first. -/
  classes : List OpenClass := []
  /-- The names of groups so far. -/
  names : List (List Char) := []
  /-- Inside a comment. -/
  comment : Bool := false
deriving DecidableEq, Repr

namespace Reader

/-- Passes an item. -/
def pass (r : Reader) (depth : Nat) : Reader := { r with mode := .between true, items := depth :: r.items }

/-- The last item is repeated. -/
def repeatLast (r : Reader) : Reader := { r with mode := .repeated, items := r.items.modifyHead (· + 1) }

/-- Ends a branch. -/
def endBranch (r : Reader) : Reader :=
  { r with mode := .between false, items := [], branches := r.items.depth :: r.branches }

/-- The depth of all branches of the innermost group. -/
def depth (r : Reader) : Nat := Row.depth (r.items.depth :: r.branches)

/-- Opens a group with flags of its own. -/
def openGroup (r : Reader) (inside : Flags) : Reader :=
  { r with
    mode := .between false
    flags := inside
    items := []
    branches := []
    groups := ⟨r.flags, r.items, r.branches⟩ :: r.groups }

/-- Closes the innermost group. -/
def closeGroup (r : Reader) : Option Reader :=
  match r.groups with
  | [] => none
  | g :: groups =>
    some ({ r with flags := g.flags, items := g.items, branches := g.branches, groups }.pass (r.depth + 1))

/-- Opens a class, also inside another. -/
def openClass (r : Reader) : Reader := { r with mode := .inClass .opened, classes := {} :: r.classes }

/-- Passes a member of the innermost class. -/
def passMember (r : Reader) (mode : ClassMode) (depth : Nat) : Reader :=
  { r with mode := .inClass mode, classes := r.classes.modifyHead (·.push depth) }

/-- Meets an operator in the innermost class. -/
def operate (r : Reader) : Reader := { r with mode := .inClass .operator, classes := r.classes.modifyHead (·.operate) }

/-- Closes the innermost class. -/
def closeClass (r : Reader) : Option Reader :=
  match r.classes with
  | [] => none
  | [c] => some ({ r with classes := [] }.pass (c.depth + 1))
  | c :: classes => some ({ r with classes }.passMember .between (c.depth + 1))

/-- Nothing is left open, and the pattern is not too deep. -/
def isComplete (r : Reader) : Bool :=
  match r.mode with
  | .between _ | .repeated => r.groups.isEmpty && r.depth ≤ maxDepth
  | _ => false

end Reader

end VirtineCleaning.LogFilter.Pattern

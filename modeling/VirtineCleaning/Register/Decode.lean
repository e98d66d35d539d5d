import VirtineCleaning.Register.Part
import VirtineCleaning.Register.Table

/-!
# Decoding an access

An access is an offset into the window and a length. `decode` resolves it against the register table: it may fall on
a part of a register, on a part of a ring slot, on nothing that is known, or be no access at all.
-/

namespace VirtineCleaning

/-- What an access falls on. -/
inductive Target where
  /-- Empty or misaligned: nothing is transferred. -/
  | dropped
  /-- No register begins or halves there with that length. -/
  | unknown
  | register (register : Register) (part : Part)
  | slot (queue : QueueName) (index : Nat) (part : Part)
deriving DecidableEq, Repr

/-- What `length` bytes at `start` fall on inside a field. -/
def Field.target (f : Field) (start length : Nat) : Target :=
  match f.register.ring? with
  | some queue =>
    match Part.of? slotWidth (start % slotWidth) length with
    | some part => .slot queue (start / slotWidth) part
    | none => .unknown
  | none =>
    match Part.of? f.width start length with
    | some part => .register f.register part
    | none => .unknown

/-- What an access of `length` bytes at `offset` falls on. -/
def decode (offset : Word) (length : Nat) : Target :=
  if length = 0 ∨ offset.toNat % accessAlign ≠ 0 then .dropped
  else
    match Field.table.find? (·.covers offset.toNat) with
    | none => .unknown
    | some f => f.target (offset.toNat - f.offset) length

end VirtineCleaning

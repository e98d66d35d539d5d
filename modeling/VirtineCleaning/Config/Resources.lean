import VirtineCleaning.Config.Basic

/-!
# Resources

A valid configuration may still ask for more than a program can have. Making a device takes its memory first, then a
place for every notification that may be pending, then a worker with a name; the first of them that cannot be had ends
the program.
-/

namespace VirtineCleaning.Config

/-- How a program ends that cannot have what it asks for. -/
inductive Breakdown where
  /-- It gives itself up. -/
  | abort
  /-- The system puts an end to it. -/
  | killed
deriving DecidableEq, Repr

/-- The most bytes that a program may ask for in one piece. -/
def maxRequest : Nat := 0x7fffffffffffffff

/-- The bytes that a pending notification takes up. -/
def notificationBytes : Nat := 24

/-- How a program ends that asks for so many bytes, if it cannot have them: the system has fewer than `memory` for it. -/
def allocationBreakdown? (memory bytes : Nat) : Option Breakdown :=
  if maxRequest < bytes then some .abort else if memory ≤ bytes then some .killed else none

/-- How a program ends that starts a worker of that name, if it cannot start it: a name holds no NUL. -/
def workerBreakdown? (name : String) : Option Breakdown :=
  if name.toList.contains '\x00' then some .abort else none

/-- How a program ends that makes a device on a system with so much memory, if it cannot make it. -/
def breakdown? (c : Config) (memory : Nat) : Option Breakdown :=
  (allocationBreakdown? memory c.memorySize.toNat).or
    ((allocationBreakdown? memory (c.notificationCapacity.toNat * notificationBytes)).or
      (workerBreakdown? c.workerThreadName))

end VirtineCleaning.Config

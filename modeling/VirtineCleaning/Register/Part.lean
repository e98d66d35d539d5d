import VirtineCleaning.Word

/-!
# Parts of a register

An access touches a whole register or one 32-bit half of an 8-byte one. `Part.of?` tells which, from the place and the
length of the access; `extract` and `merge` read and replace a part of a value.
-/

namespace VirtineCleaning

/-- The part of a register that an access touches. -/
inductive Part where
  | full
  | low
  | high
deriving DecidableEq, Repr

namespace Part

/-- The part that `length` bytes at `start` cover in a register of `width` bytes. -/
def of? : (width start length : Nat) → Option Part
  | 4, 0, 4 => some .full
  | 8, 0, 8 => some .full
  | 8, 0, 4 => some .low
  | 8, 4, 4 => some .high
  | _, _, _ => none

/-- A part of a value, moved down to bit 0. -/
def extract : Part → Word → Word
  | .full, value => value
  | .low, value => value.low.toUInt64
  | .high, value => value.high.toUInt64

/-- The value `current` with a part replaced by the low bits of `value`. -/
def merge : Part → (current value : Word) → Word
  | .full, _, value => value
  | .low, current, value => Word.join current.high value.low
  | .high, current, value => Word.join value.low current.low

end Part

end VirtineCleaning

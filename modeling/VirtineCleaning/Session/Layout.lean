import VirtineCleaning.Config.Basic

/-!
# The layout of a session

A session puts the snapshot at address zero and each virtine on pages of its own behind it. All strides are equal, so
the layout is one number; it is refused when its end lies past the address space or past the memory.
-/

namespace VirtineCleaning.Session

/-- Virtines begin on multiples of this many bytes. -/
def pageSize : Word := 0x1000

/-- The least multiple of `unit` that is not below `value`. -/
def alignUp (value unit : Word) : Word :=
  (if value % unit = 0 then value / unit else value / unit + 1) * unit

/-- What a session is asked to do. -/
structure Options where
  /-- The number of virtines to clean. -/
  virtines : Word := 100
  snapshotSize : Word := 4096
deriving DecidableEq, Repr

/-- The place of the first virtine and the distance from each to the next. -/
structure Layout where
  stride : Word
  base : Word
deriving DecidableEq, Repr

/-- Why there is no layout. -/
inductive LayoutError where
  | overflow
  | tooLarge (options : Options) (needed memorySize : Word)
deriving DecidableEq, Repr

/-- The wording of a refused layout. -/
def LayoutError.message : LayoutError → String
  | .overflow => "virtine layout overflows the address space"
  | .tooLarge options needed memorySize =>
    toString options.virtines.toNat ++ " virtines of " ++ toString options.snapshotSize.toNat ++ " bytes need "
      ++ needed.hex ++ " bytes of memory; memory_size is " ++ memorySize.hex

namespace Layout

/-- The layout for a session in a memory of the configured size. -/
def of (c : Config) (o : Options) : Except LayoutError Layout :=
  let stride := alignUp (max 1 o.snapshotSize) pageSize
  let needed := o.virtines.toNat * stride.toNat + stride.toNat
  if UInt64.size ≤ needed then .error .overflow
  else if c.memorySize.toNat < needed then .error (.tooLarge o (UInt64.ofNat needed) c.memorySize)
  else .ok ⟨stride, stride⟩

/-- The address of a virtine. -/
def virtine (l : Layout) (index : Word) : Word := l.base + index * l.stride

end Layout

end VirtineCleaning.Session

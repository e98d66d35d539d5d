import VirtineCleaning.Device.Window

/-!
# Register buses

A bus is how a host reaches a register window in some world: it fills a buffer from an offset, writes bytes at an
offset, and signals the doorbell. Reads and writes answer the number of bytes they moved. Buses are built from the
window of a device by looking at it inside a larger world, by letting something happen before or after each access, by
writing accesses down, and by letting a bus run out of accesses.
-/

namespace VirtineCleaning

/-- Register access in a world `σ`. A read answers the bytes it moved and the buffer as it leaves it. -/
structure Bus (σ : Type) where
  read : (offset : Word) → (buffer : List UInt8) → σ → (Nat × List UInt8) × σ
  write : (offset : Word) → (bytes : List UInt8) → σ → Nat × σ
  signal : σ → σ
  /-- A read keeps the length of the buffer. -/
  length_read : ∀ offset buffer s, (read offset buffer s).1.2.length = buffer.length

/-- A read of a device answers as many bytes as it was asked for. -/
theorem Device.length_of_read {d e : Device} {offset : Word} {n : Nat} {bytes : List UInt8}
    (h : d.read offset n = (some bytes, e)) : bytes.length = n := by
  unfold Device.read at h
  split at h <;> simp only [Prod.mk.injEq, Option.some.injEq, reduceCtorEq, false_and] at h
  all_goals
    obtain ⟨rfl, -⟩ := h
    simp

/-- The window of a bare device. -/
def Device.bus : Bus Device where
  read offset buffer d :=
    match d.read offset buffer.length with
    | (some bytes, d) => ((buffer.length, bytes), d)
    | (none, d) => ((0, buffer), d)
  write offset bytes d := d.write offset bytes
  signal d := d.ringDoorbell
  length_read offset buffer d := by
    split
    · next h => exact Device.length_of_read h
    · rfl

/-- A register access that was made, and the number of bytes it moved. -/
inductive Transfer where
  | read (offset : Word) (buffer : List UInt8) (count : Nat)
  | write (offset : Word) (bytes : List UInt8) (count : Nat)
  | signal
deriving DecidableEq, Repr

namespace Bus

variable {σ τ : Type}

/-- The bus of a part of a larger world. -/
def focus (b : Bus σ) (get : τ → σ) (set : σ → τ → τ) : Bus τ where
  read offset buffer t :=
    match b.read offset buffer (get t) with
    | (result, s) => (result, set s t)
  write offset bytes t :=
    match b.write offset bytes (get t) with
    | (count, s) => (count, set s t)
  signal t := set (b.signal (get t)) t
  length_read offset buffer t := b.length_read offset buffer (get t)

/-- The same bus, with something that happens before every access. -/
def preceded (b : Bus σ) (before : σ → σ) : Bus σ where
  read offset buffer s := b.read offset buffer (before s)
  write offset bytes s := b.write offset bytes (before s)
  signal s := b.signal (before s)
  length_read offset buffer s := b.length_read offset buffer (before s)

/-- The same bus, with something that happens after every access. -/
def andThen (b : Bus σ) (after : σ → σ) : Bus σ where
  read offset buffer s :=
    match b.read offset buffer s with
    | (result, s) => (result, after s)
  write offset bytes s :=
    match b.write offset bytes s with
    | (count, s) => (count, after s)
  signal s := after (b.signal s)
  length_read offset buffer s := b.length_read offset buffer s

/-- The same bus, with its accesses written down in order. -/
def traced (b : Bus σ) : Bus (σ × List Transfer) where
  read offset buffer := fun (s, trace) =>
    match b.read offset buffer s with
    | ((count, buffer), s) => ((count, buffer), (s, trace ++ [.read offset buffer count]))
  write offset bytes := fun (s, trace) =>
    match b.write offset bytes s with
    | (count, s) => (count, (s, trace ++ [.write offset bytes count]))
  signal := fun (s, trace) => (b.signal s, trace ++ [.signal])
  length_read offset buffer := fun (s, _) => b.length_read offset buffer s

/-- The same bus with a budget of reads and writes, if one is set; once it is spent they move nothing. -/
def limited (b : Bus σ) : Bus (σ × Option Nat) where
  read offset buffer := fun (s, budget) =>
    match budget with
    | some 0 => ((0, buffer), (s, budget))
    | _ =>
      match b.read offset buffer s with
      | (result, s) => (result, (s, budget.map (· - 1)))
  write offset bytes := fun (s, budget) =>
    match budget with
    | some 0 => (0, (s, budget))
    | _ =>
      match b.write offset bytes s with
      | (count, s) => (count, (s, budget.map (· - 1)))
  signal := fun (s, budget) => (b.signal s, budget)
  length_read offset buffer := fun (s, budget) => by
    dsimp only
    split
    · rfl
    · exact b.length_read offset buffer s

/-- Reads four bytes; what is not transferred reads as zero. -/
def readHalf (b : Bus σ) (offset : Word) : StateM σ HalfWord := do
  let (_, bytes) ← b.read offset (List.replicate 4 0)
  return HalfWord.ofBytes bytes

/-- Reads eight bytes in one access; what is not transferred reads as zero. -/
def readWord (b : Bus σ) (offset : Word) : StateM σ Word := do
  let (_, bytes) ← b.read offset (List.replicate 8 0)
  return Word.ofBytes bytes

/-- Writes four bytes. -/
def writeHalf (b : Bus σ) (offset : Word) (value : HalfWord) : StateM σ Nat :=
  b.write offset (HalfWord.bytes value)

/-- Writes eight bytes in one access. -/
def writeWord (b : Bus σ) (offset value : Word) : StateM σ Nat :=
  b.write offset value.bytes

/-- Reads a word as two halves, the low one first. -/
def readSplit (b : Bus σ) (offset : Word) : StateM σ Word := do
  let low ← b.readHalf offset
  let high ← b.readHalf (offset + 4)
  return Word.join high low

/-- Writes a word as two halves, the low one first. -/
def writeSplit (b : Bus σ) (offset value : Word) : StateM σ Unit := do
  let _ ← b.writeHalf offset value.low
  let _ ← b.writeHalf (offset + 4) value.high

end Bus

end VirtineCleaning

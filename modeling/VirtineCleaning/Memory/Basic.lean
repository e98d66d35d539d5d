import VirtineCleaning.Word

/-!
# Virtine memory

Virtines and their snapshot lie in one linear memory, addressed by plain words. A store of bytes offers checked reads
and writes; `ByteStore.copyRange` makes a copy out of these alone, in chunks, or in one piece where the two ranges
overlap. Both ranges are checked before the first byte is written, so a copy that fails leaves the memory as it was.
-/

namespace VirtineCleaning

/-- An access that does not lie inside a memory of `size` bytes. -/
structure OutOfRange where
  address : Word
  length : Word
  size : Word
deriving DecidableEq, Repr

/-- The wording of a refused access. -/
def OutOfRange.message (e : OutOfRange) : String :=
  s!"memory access out of range: addr={e.address.hex} len={e.length.toNat} size={e.size.hex}"

/-- A range is inside a memory when its end, as a number without bound, is. -/
def checkRange (size address length : Word) : Except OutOfRange Unit :=
  if address.toNat + length.toNat ≤ size.toNat then .ok () else .error ⟨address, length, size⟩

/-- `n` bytes with one value. -/
def replicateByte (n : Nat) (b : UInt8) : ByteArray :=
  if n = 0 then ByteArray.empty
  else
    let half := replicateByte (n / 2) b
    let whole := half ++ half
    if n % 2 = 0 then whole else whole.push b
termination_by n

/-- The bytes `f 0`, `f 1`, …, `f (n - 1)`. -/
def tabulateBytes (n : Nat) (f : Nat → UInt8) : ByteArray :=
  n.fold (fun i _ bytes => bytes.push (f i)) (ByteArray.emptyWithCapacity n)

@[simp] theorem size_replicateByte (n : Nat) (b : UInt8) : (replicateByte n b).size = n := by
  fun_induction replicateByte n b with
  | case1 => rfl
  | case2 n h half whole ih => simp only [ByteArray.size_append, whole, half] at *; omega
  | case3 n h half whole ih => simp only [ByteArray.size_push, ByteArray.size_append, whole, half] at *; omega

/-- Bytes that can be read and written by range. Operations that may write also answer the memory afterwards. -/
class ByteStore (μ : Type) where
  /-- The number of bytes. -/
  size : μ → Word
  /-- The `length` bytes at `address`. -/
  read : μ → (address length : Word) → Except OutOfRange ByteArray
  /-- Replaces the bytes from `address` on. -/
  write : μ → (address : Word) → (bytes : ByteArray) → Except OutOfRange Unit × μ

namespace ByteStore

variable {μ : Type} [ByteStore μ]

/-- The most bytes that a chunked copy holds at a time. -/
def copyChunk : Nat := 4096

/-- Copies `length` bytes upwards, one chunk after the other. -/
def copyChunks (m : μ) (source target : Word) (length : Nat) : Except OutOfRange Unit × μ :=
  if length = 0 then (.ok (), m)
  else
    let n := min length copyChunk
    match read m source (UInt64.ofNat n) with
    | .error e => (.error e, m)
    | .ok chunk =>
      match write m target chunk with
      | (.error e, m) => (.error e, m)
      | (.ok (), m) => copyChunks m (source + UInt64.ofNat n) (target + UInt64.ofNat n) (length - n)
termination_by length
decreasing_by simp only [copyChunk] at *; omega

/-- Copies `length` bytes from `source` to `target` as if through a buffer; an empty copy always succeeds. -/
def copyRange (m : μ) (source target length : Word) : Except OutOfRange Unit × μ :=
  if length = 0 then (.ok (), m)
  else
    match checkRange (size m) source length with
    | .error e => (.error e, m)
    | .ok () =>
      match checkRange (size m) target length with
      | .error e => (.error e, m)
      | .ok () =>
        if source < target + length ∧ target < source + length then
          match read m source length with
          | .error e => (.error e, m)
          | .ok bytes => write m target bytes
        else copyChunks m source target length.toNat

/-- The word at `address`, least significant byte first. -/
def readWord (m : μ) (address : Word) : Except OutOfRange Word :=
  (read m address 8).map fun bytes => Word.ofBytes bytes.toList

/-- Replaces the word at `address`. -/
def writeWord (m : μ) (address value : Word) : Except OutOfRange Unit × μ :=
  write m address value.bytes.toByteArray

end ByteStore

/-- A memory in which virtines are cleaned: a store of bytes with a copy of its own, the chunked one if none is given. -/
class VirtineMemory (μ : Type) extends ByteStore μ where
  /-- Copies `length` bytes from `source` to `target`. -/
  copy : μ → (source target length : Word) → Except OutOfRange Unit × μ := ByteStore.copyRange

end VirtineCleaning

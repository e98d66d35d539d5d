import VirtineCleaning.Memory.Basic

/-!
# Dense memory

A dense memory is one array of bytes, all zero at first, which copies a range in one piece. A plain memory is the same
array without a copy of its own.
-/

namespace VirtineCleaning

/-- A contiguous memory of `size` bytes. -/
structure DenseMemory where
  size : Word
  data : ByteArray
  size_data : data.size = size.toNat

namespace DenseMemory

/-- A memory of zeros. -/
def zeros (size : Word) : DenseMemory where
  size
  data := replicateByte size.toNat 0
  size_data := size_replicateByte _ _

instance : Inhabited DenseMemory := ⟨zeros 0⟩

/-- Bytes written inside the array leave its length as it is. -/
theorem size_copySlice {data bytes : ByteArray} {start : Nat} (h : start + bytes.size ≤ data.size) :
    (bytes.copySlice 0 data start bytes.size).size = data.size := by
  rw [← ByteArray.size_data]
  simp only [ByteArray.copySlice, Array.size_append, Array.size_extract, ByteArray.size_data]
  omega

/-- Replaces the bytes from `address` on, without a check. -/
def put (m : DenseMemory) (address : Nat) (bytes : ByteArray) (h : address + bytes.size ≤ m.data.size) : DenseMemory where
  size := m.size
  data := bytes.copySlice 0 m.data address bytes.size
  size_data := (size_copySlice h).trans m.size_data

/-- The `length` bytes at `address`, when they are inside. -/
def read (m : DenseMemory) (address length : Word) : Except OutOfRange ByteArray :=
  (checkRange m.size address length).map fun () => m.data.extract address.toNat (address.toNat + length.toNat)

/-- Replaces the bytes from `address` on, when they are inside. -/
def write (m : DenseMemory) (address : Word) (bytes : ByteArray) : Except OutOfRange Unit × DenseMemory :=
  if h : address.toNat + bytes.size ≤ m.data.size then (.ok (), m.put address.toNat bytes h)
  else (.error ⟨address, UInt64.ofNat bytes.size, m.size⟩, m)

/-- Copies `length` bytes in one piece; an empty copy always succeeds. -/
def copy (m : DenseMemory) (source target length : Word) : Except OutOfRange Unit × DenseMemory :=
  if length = 0 then (.ok (), m)
  else
    match m.read source length with
    | .error e => (.error e, m)
    | .ok bytes => m.write target bytes

instance : VirtineMemory DenseMemory where
  size := size
  read := read
  write := write
  copy := copy

end DenseMemory

/-- A dense memory whose copies are made of reads and writes. -/
structure PlainMemory where
  bytes : DenseMemory

namespace PlainMemory

/-- A plain memory of zeros. -/
def zeros (size : Word) : PlainMemory := ⟨.zeros size⟩

instance : VirtineMemory PlainMemory where
  size m := m.bytes.size
  read m := m.bytes.read
  write m address bytes :=
    match m.bytes.write address bytes with
    | (result, written) => (result, ⟨written⟩)

end PlainMemory

end VirtineCleaning

import VirtineCleaning.Device.Basic
import VirtineCleaning.Register.Decode

/-!
# The register window of a device

Host accesses to the window, after `decode` has told what they fall on. An access that is dropped moves nothing; one
that falls on nothing known is ignored when it writes and answers ones when it reads.

Three registers take part in protocols over two accesses of the 32-bit bus:

* a write of the low half of `readyTail` stages it, and a write of the high half submits the word of both;
* `snapshotAddress` is staged alike, and takes its new value as a whole;
* a read of the low half of `completeHead` reclaims an address and latches it, and a read of the high half ends the
  latch. The low half can be read again in between.
-/

namespace VirtineCleaning.Device

/-- The number that stands for a flag. -/
def flag (b : Bool) : Word := if b then 1 else 0

/-- Reads a part of `completeHead`. -/
def readCompleteHead (d : Device) : Part → Word × Device
  | .full =>
    match d.completeHeadLatch with
    | some latched => (latched, { d with completeHeadLatch := none })
    | none => d.dequeue
  | .low =>
    match d.completeHeadLatch with
    | some latched => (Part.low.extract latched, d)
    | none =>
      let (reclaimed, d) := d.dequeue
      (Part.low.extract reclaimed, { d with completeHeadLatch := some reclaimed })
  | .high =>
    match d.completeHeadLatch with
    | some latched => (Part.high.extract latched, { d with completeHeadLatch := none })
    | none => (0, d)

/-- Reads a part of a register. -/
def readPart (d : Device) (part : Part) : Register → Word × Device
  | .readyHead => (part.extract (UInt64.ofNat d.ready.head.val), d)
  | .readyTail => (part.extract (UInt64.ofNat d.ready.tail.val), d)
  | .doorbell => (flag d.doorbell, d)
  | .processing => (flag d.isProcessing, d)
  | .completeHead => d.readCompleteHead part
  | .completeTail => (part.extract (UInt64.ofNat d.complete.tail.val), d)
  | .batchFactor => (part.extract d.batchFactor, d)
  | .maxVirtines => (part.extract (UInt64.ofNat VirtineCleaning.maxVirtines), d)
  | .snapshotSize => (part.extract d.snapshot.size, d)
  | .snapshotAddress => (part.extract d.snapshot.address, d)
  | .readyRing | .completeRing => (0, d)

/-- Reads a part of a ring slot, zero where the slot is vacant. -/
def readSlot (d : Device) (queue : QueueName) (index : Nat) (part : Part) : Word :=
  part.extract (Address.wordOrZero ((d.queue queue).slot? index))

/-- Writes a part of `readyTail`. -/
def writeReadyTail (d : Device) (part : Part) (value : Word) : Device :=
  match part with
  | .full => d.enqueue value
  | .low => { d with stagedReadyTail := some value.low }
  | .high => { d with stagedReadyTail := none }.enqueue (Word.join value.low (d.stagedReadyTail.getD 0))

/-- Writes a part of `snapshotAddress`. -/
def writeSnapshotAddress (d : Device) (part : Part) (value : Word) : Device :=
  match part with
  | .full => { d with snapshot := { d.snapshot with address := value } }
  | .low => { d with stagedSnapshotAddress := some value.low }
  | .high =>
    { d with
      stagedSnapshotAddress := none
      snapshot := { d.snapshot with address := Word.join value.low (d.stagedSnapshotAddress.getD 0) } }

/-- Writes a part of a register; a register that is only readable stays as it is. -/
def writePart (d : Device) (part : Part) (value : Word) : Register → Device
  | .readyTail => d.writeReadyTail part value
  | .doorbell => d.ringDoorbell
  | .batchFactor => { d with batchFactor := part.merge d.batchFactor value }
  | .snapshotSize => { d with snapshot := { d.snapshot with size := part.merge d.snapshot.size value } }
  | .snapshotAddress => d.writeSnapshotAddress part value
  | _ => d

/-- Reads `length` bytes at `offset`; `none` when nothing is transferred. -/
def read (d : Device) (offset : Word) (length : Nat) : Option (List UInt8) × Device :=
  match decode offset length with
  | .dropped => (none, d)
  | .unknown => (some (List.replicate length 0xff), d)
  | .register register part =>
    let (value, d) := d.readPart part register
    (some (littleEndian length value.toNat), d)
  | .slot queue index part => (some (littleEndian length (d.readSlot queue index part).toNat), d)

/-- Writes bytes at `offset` and answers how many were transferred. -/
def write (d : Device) (offset : Word) (bytes : List UInt8) : Nat × Device :=
  match decode offset bytes.length with
  | .dropped => (0, d)
  | .unknown | .slot .. => (bytes.length, d)
  | .register register part => (bytes.length, d.writePart part (Word.ofBytes bytes) register)

/-- Reads at most eight bytes at `offset` as a number, zero when nothing is transferred. -/
def readValue (d : Device) (offset : Word) (size : Nat) : Word × Device :=
  match d.read offset (min size 8) with
  | (some bytes, d) => (Word.ofBytes bytes, d)
  | (none, d) => (0, d)

/-- Writes the `size` low bytes of a word at `offset`, all eight where `size` is larger. -/
def writeValue (d : Device) (offset : Word) (size : Nat) (value : Word) : Nat × Device :=
  d.write offset (value.bytes.take size)

end VirtineCleaning.Device

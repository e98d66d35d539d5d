import VirtineCleaning.Bus
import VirtineCleaning.Proofs.Device.Halves
import VirtineCleaning.Proofs.Register.Places

/-!
# What accesses leave alone

Of a device, an access changes only what belongs to the register that it falls on, and only where the register table allows it:
reads change something at `completeHead` alone, and writes at the writable registers. What is transferred is a half or a word, and
an access that falls on nothing changes nothing (`access_frame`).
-/

namespace VirtineCleaning.Device

/-! ## The part of a register -/

/-- A device that differs from `d` in nothing but what belongs to a register. -/
inductive DiffersAt (d : Device) : Register → Device → Prop where
  /-- The staged half, the Ready Queue, and the counts of what was submitted to it. -/
  | readyTail (stagedReadyTail : Option HalfWord) (ready : VirtineQueue) (submitted rejectedFull rejectedZero : Nat) :
      DiffersAt d .readyTail { d with
        stagedReadyTail, ready
        stats := { d.stats with submitted, rejectedFull, rejectedZero } }
  | doorbell (doorbell : Bool) : DiffersAt d .doorbell { d with doorbell }
  /-- The latch, the Complete Queue, the count of what left it, and the stall that ends when something does. -/
  | completeHead (completeHeadLatch : Option Word) (complete : VirtineQueue) (reclaimed : Nat) (doorbell isStalled : Bool) :
      DiffersAt d .completeHead { d with
        completeHeadLatch, complete, doorbell, isStalled
        stats := { d.stats with reclaimed } }
  | batchFactor (batchFactor : Word) : DiffersAt d .batchFactor { d with batchFactor }
  | snapshotSize (size : Word) : DiffersAt d .snapshotSize { d with snapshot := { d.snapshot with size } }
  /-- The staged half and the address. -/
  | snapshotAddress (stagedSnapshotAddress : Option HalfWord) (address : Word) :
      DiffersAt d .snapshotAddress { d with stagedSnapshotAddress, snapshot := { d.snapshot with address } }

/-- A submission changes the Ready Queue and what is counted of it. -/
theorem differsAt_enqueue (d : Device) (stagedReadyTail : Option HalfWord) (w : Word) :
    d.DiffersAt .readyTail ({ d with stagedReadyTail }.enqueue w) := by
  have hcase := enqueue_case { d with stagedReadyTail } w
  generalize { d with stagedReadyTail }.enqueue w = next, { d with stagedReadyTail }.submitEvents w = events at hcase
  cases hcase with
  | zero => exact .readyTail _ _ _ _ _
  | full => exact .readyTail _ _ _ _ _
  | accepted => exact .readyTail _ _ _ _ _

/-- Taking an address off the Complete Queue changes the queue, the count, and a stall. -/
theorem differsAt_dequeue (d : Device) (completeHeadLatch : Option Word) :
    d.DiffersAt .completeHead { d.dequeue.2 with completeHeadLatch } := by
  have hcase := d.dequeue_case
  generalize d.dequeue = next, d.dequeueEvents = events at hcase
  cases hcase with
  | empty => exact .completeHead _ d.complete d.stats.reclaimed d.doorbell d.isStalled
  | taken => exact .completeHead _ _ _ _ _

/-! ## Writes -/

/-- A register that is only readable stays as it is. -/
theorem writePart_of_readOnly (d : Device) (part : Part) (value : Word) {r : Register} (h : r.access.writable = false) :
    d.writePart part value r = d := by
  cases r with
  | readyTail | doorbell | batchFactor | snapshotSize | snapshotAddress => cases h
  | _ => rfl

/-- A write to a writable register changes what belongs to it. -/
theorem differsAt_writePart (d : Device) (part : Part) (value : Word) {r : Register} (h : r.access.writable = true) :
    d.DiffersAt r (d.writePart part value r) := by
  cases r with
  | readyTail =>
    cases part with
    | full => exact d.differsAt_enqueue d.stagedReadyTail value
    | low => exact .readyTail _ d.ready d.stats.submitted d.stats.rejectedFull d.stats.rejectedZero
    | high => exact d.differsAt_enqueue none _
  | doorbell =>
    rw [writePart, ringDoorbell]
    split
    · exact .doorbell d.doorbell
    · exact .doorbell true
  | batchFactor => exact .batchFactor _
  | snapshotSize => exact .snapshotSize _
  | snapshotAddress =>
    cases part with
    | full => exact .snapshotAddress d.stagedSnapshotAddress _
    | low => exact .snapshotAddress _ d.snapshot.address
    | high => exact .snapshotAddress none _
  | _ => cases h

/-- A write leaves the device as it is, unless it falls on a writable register. -/
theorem write_of_unwritable (d : Device) (offset : Word) (bytes : List UInt8)
    (h : ∀ r part, decode offset bytes.length = .register r part → r.access.writable = false) :
    (d.write offset bytes).2 = d := by
  unfold write
  split
  · rfl
  · rfl
  · rfl
  · rename_i r part hdec
    exact d.writePart_of_readOnly part _ (h r part hdec)

/-- A write that falls on a register changes what belongs to it, if that is writable. -/
theorem differsAt_write (d : Device) (offset : Word) (bytes : List UInt8) {r : Register} {part : Part}
    (hdec : decode offset bytes.length = .register r part) (h : r.access.writable = true) :
    d.DiffersAt r (d.write offset bytes).2 := by
  simp only [write, hdec]
  exact d.differsAt_writePart part _ h

/-- Bytes that are written at a place for accesses are moved whole. -/
theorem count_write (d : Device) {offset : Word} {bytes : List UInt8} (h : decode offset bytes.length ≠ .dropped) :
    (d.write offset bytes).1 = bytes.length := by
  unfold write
  split
  · exact absurd ‹_› h
  all_goals rfl

/-! ## Reads -/

/-- A read of `completeHead` changes what belongs to it. -/
theorem differsAt_readCompleteHead (d : Device) (part : Part) : d.DiffersAt .completeHead (d.readCompleteHead part).2 := by
  have hlatch : ∀ latch, d.DiffersAt .completeHead { d with completeHeadLatch := latch } := fun latch =>
    .completeHead latch d.complete d.stats.reclaimed d.doorbell d.isStalled
  cases hlatched : d.completeHeadLatch with
  | none =>
    cases part with
    | full =>
      simp only [readCompleteHead, hlatched]
      exact d.differsAt_dequeue d.dequeue.2.completeHeadLatch
    | low =>
      simp only [readCompleteHead, hlatched]
      exact d.differsAt_dequeue _
    | high =>
      simp only [readCompleteHead, hlatched]
      exact hlatch d.completeHeadLatch
  | some latched =>
    cases part with
    | full =>
      simp only [readCompleteHead, hlatched]
      exact hlatch none
    | low =>
      simp only [readCompleteHead, hlatched]
      exact hlatch d.completeHeadLatch
    | high =>
      simp only [readCompleteHead, hlatched]
      exact hlatch none

/-- A read leaves the device as it is, unless it falls on `completeHead`. -/
theorem read_of_elsewhere (d : Device) (offset : Word) (length : Nat)
    (h : ∀ part, decode offset length ≠ .register .completeHead part) : (d.read offset length).2 = d := by
  apply d.read_of_not_reads
  simp only [Action.reads]
  split
  · next r part hdec =>
    rw [beq_eq_false_iff_ne]
    rintro rfl
    exact h part hdec
  · rfl

/-- A read that is not dropped moves as many bytes as it was asked for. -/
theorem exists_read (d : Device) {offset : Word} {length : Nat} (h : decode offset length ≠ .dropped) :
    ∃ bytes e, d.read offset length = (some bytes, e) := by
  unfold read
  split
  · exact absurd ‹_› h
  · exact ⟨_, _, rfl⟩
  · exact ⟨_, _, rfl⟩
  · exact ⟨_, _, rfl⟩

/-- Through the bus it fills the whole buffer. -/
theorem exists_bus_read (d : Device) {offset : Word} {buffer : List UInt8} (h : decode offset buffer.length ≠ .dropped) :
    ∃ bytes, bus.read offset buffer d = ((buffer.length, bytes), (d.read offset buffer.length).2) := by
  obtain ⟨bytes, e, hread⟩ := d.exists_read h
  refine ⟨bytes, ?_⟩
  simp only [bus, hread]

/-! ## Accesses -/

/-- What a read does to its buffer and to the device. -/
structure ReadFrame (d : Device) (offset : Word) (buffer : List UInt8) : Prop where
  /-- What falls on a register or a slot is a half or a word long. -/
  fits : decode offset buffer.length ≠ .dropped → decode offset buffer.length ≠ .unknown →
    buffer.length = 4 ∨ buffer.length = 8
  /-- There are no more slots than a ring has. -/
  slot : ∀ name i part, decode offset buffer.length = .slot name i part → i < maxVirtines
  dropped : buffer.length = 0 ∨ offset.toNat % accessAlign ≠ 0 → bus.read offset buffer d = ((0, buffer), d)
  moved : buffer.length ≠ 0 → offset.toNat % accessAlign = 0 → (bus.read offset buffer d).1.1 = buffer.length
  unknown : decode offset buffer.length = .unknown →
    bus.read offset buffer d = ((buffer.length, List.replicate buffer.length 0xff), d)
  elsewhere : (∀ part, decode offset buffer.length ≠ .register .completeHead part) → (bus.read offset buffer d).2 = d
  completeHead : ∀ part, decode offset buffer.length = .register .completeHead part →
    d.DiffersAt .completeHead (bus.read offset buffer d).2

/-- What a write does to the device. -/
structure WriteFrame (d : Device) (offset : Word) (bytes : List UInt8) : Prop where
  /-- What falls on a register or a slot is a half or a word long. -/
  fits : decode offset bytes.length ≠ .dropped → decode offset bytes.length ≠ .unknown →
    bytes.length = 4 ∨ bytes.length = 8
  dropped : bytes.length = 0 ∨ offset.toNat % accessAlign ≠ 0 → bus.write offset bytes d = (0, d)
  moved : bytes.length ≠ 0 → offset.toNat % accessAlign = 0 → (bus.write offset bytes d).1 = bytes.length
  unknown : decode offset bytes.length = .unknown → (bus.write offset bytes d).2 = d
  slot : ∀ name i part, decode offset bytes.length = .slot name i part → (bus.write offset bytes d).2 = d
  readOnly : ∀ r part, decode offset bytes.length = .register r part → r.access.writable = false →
    (bus.write offset bytes d).2 = d
  writable : ∀ r part, decode offset bytes.length = .register r part → r.access.writable = true →
    d.DiffersAt r (bus.write offset bytes d).2

/-- What a read can change is its own part of the device. -/
theorem readFrame (d : Device) (offset : Word) (buffer : List UInt8) : d.ReadFrame offset buffer := by
  have hleaves : (bus.read offset buffer d).2 = (d.read offset buffer.length).2 := by
    simp only [bus]
    split <;> next h => rw [h]
  constructor
  · exact length_of_decode
  · intro name i part hdec
    obtain ⟨_, _, _, hi, _⟩ := decode_eq_slot_iff.1 hdec
    exact hi
  · intro h
    simp only [bus, read, decode_eq_dropped_iff.2 h]
  · intro hlength halign
    obtain ⟨bytes, hread⟩ := d.exists_bus_read (decode_ne_dropped hlength halign)
    rw [hread]
  · intro h
    simp only [bus, read, h]
  · intro h
    rw [hleaves]
    exact d.read_of_elsewhere offset buffer.length h
  · intro part hdec
    rw [hleaves]
    simp only [read, hdec]
    exact d.differsAt_readCompleteHead part

/-- What a write can change is its own part of the device. -/
theorem writeFrame (d : Device) (offset : Word) (bytes : List UInt8) : d.WriteFrame offset bytes := by
  have hunwritable : (∀ r part, decode offset bytes.length = .register r part → r.access.writable = false) →
      (bus.write offset bytes d).2 = d := d.write_of_unwritable offset bytes
  constructor
  · exact length_of_decode
  · intro h
    simp only [bus, write, decode_eq_dropped_iff.2 h]
  · intro hlength halign
    exact d.count_write (decode_ne_dropped hlength halign)
  · intro h
    exact hunwritable fun r part hdec => by rw [h] at hdec; cases hdec
  · intro name i part h
    exact hunwritable fun r part hdec => by rw [h] at hdec; cases hdec
  · intro r part h hreadOnly
    refine hunwritable fun r' part' hdec => ?_
    rw [h] at hdec
    cases hdec
    exact hreadOnly
  · intro r part h hwritable
    exact d.differsAt_write offset bytes h hwritable

/-- Accesses keep to their own part of a device, whatever is in it and whatever is read or written where. Nothing is transferred but
halves and words, besides what is unknown; an empty or misaligned access moves nothing, and leaves the buffer and the device; any
other answers its length. A read fills the buffer with ones where nothing is known, and changes the device at `completeHead` alone.
A write changes it at the registers that the table calls writable, and there only what belongs to the register. -/
theorem access_frame (d : Device) (offset : Word) (buffer bytes : List UInt8) :
    d.ReadFrame offset buffer ∧ d.WriteFrame offset bytes :=
  ⟨d.readFrame offset buffer, d.writeFrame offset bytes⟩

end VirtineCleaning.Device

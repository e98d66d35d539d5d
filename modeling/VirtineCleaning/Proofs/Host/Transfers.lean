import VirtineCleaning.Proofs.Device.Cells
import VirtineCleaning.Proofs.Device.Frame
import VirtineCleaning.Proofs.Host.Accesses

/-!
# Transfers and calls

A host can move bytes to and from the window, or make calls. A transfer goes through the window in accesses of four bytes, the low
half of each word first, where calls write some registers whole. On a device that does nothing in between, both come to the same
(`transfers_agree_with_calls`): halves that are written in place leave the word, and the others are staged or latched until the
word is complete.
-/

namespace VirtineCleaning

namespace Bus

variable {σ : Type}

/-- The access of a read of a half. -/
theorem readHalf_run (bus : Bus σ) (offset : Word) (s : σ) :
    bus.readHalf offset s =
      let moved := bus.read offset (List.replicate 4 0) s
      (HalfWord.ofBytes moved.1.2, moved.2) := rfl

/-- The access of a read of a word. -/
theorem readWord_run (bus : Bus σ) (offset : Word) (s : σ) :
    bus.readWord offset s =
      let moved := bus.read offset (List.replicate 8 0) s
      (Word.ofBytes moved.1.2, moved.2) := rfl

/-- The accesses of a read of a word in halves. -/
theorem readSplit_run (bus : Bus σ) (offset : Word) (s : σ) :
    bus.readSplit offset s =
      let low := bus.readHalf offset s
      let high := bus.readHalf (offset + 4) low.2
      (Word.join high.1 low.1, high.2) := rfl

end Bus

/-! ## Accesses to a bare device -/

namespace Device

variable {d e f : Device} {offset : Word}

/-- A read of the bus is a read of its device. -/
theorem bus_read {n : Nat} {bytes buffer : List UInt8} (h : d.read offset n = (some bytes, e)) (hb : buffer.length = n) :
    bus.read offset buffer d = ((n, bytes), e) := by
  subst hb
  simp only [bus, h]

/-- A half that is read is the half that the device shows. -/
theorem bus_readHalf {half : HalfWord} (h : d.read offset 4 = (some half.bytes, e)) :
    bus.readHalf offset d = (half, e) := by
  rw [Bus.readHalf_run, bus_read h List.length_replicate]
  dsimp only
  rw [HalfWord.ofBytes_bytes]

/-- So is a word. -/
theorem bus_readWord {w : Word} (h : d.read offset 8 = (some w.bytes, e)) : bus.readWord offset d = (w, e) := by
  rw [Bus.readWord_run, bus_read h List.length_replicate]
  dsimp only
  rw [Word.ofBytes_bytes]

/-- A word that is read in halves is the word of both. -/
theorem bus_readSplit {w : Word} (hlow : d.read offset 4 = (some w.low.bytes, e))
    (hhigh : e.read (offset + 4) 4 = (some w.high.bytes, f)) : bus.readSplit offset d = (w, f) := by
  rw [Bus.readSplit_run, bus_readHalf hlow]
  dsimp only
  rw [bus_readHalf hhigh, Word.join_high_low]

/-- The halves of `maxVirtines` are those of the number of slots. -/
theorem read_maxVirtines (d : Device) :
    d.read Register.maxVirtines.address 4 = (some (Word.low (UInt64.ofNat maxVirtines)).bytes, d) ∧
      d.read (Register.maxVirtines.address + 4) 4 = (some (Word.high (UInt64.ofNat maxVirtines)).bytes, d) := by
  have hlow : decode Register.maxVirtines.address 4 = .register .maxVirtines .low := by decide
  have hhigh : decode (Register.maxVirtines.address + 4) 4 = .register .maxVirtines .high := by decide
  simp [read, hlow, hhigh, readPart, Part.extract, HalfWord.bytes]

end Device

namespace Host

variable {σ : Type}

/-! ## Transfers, one word after the other -/

/-- A step of a program hands its answer and the world that it leaves to the rest. -/
theorem bind_run {α β : Type} (x : StateM σ α) (f : α → StateM σ β) (s : σ) : (x >>= f) s = f (x s).1 (x s).2 := rfl

/-- A word that is moved whole is followed by the rest of the transfer. -/
theorem writeWords_succ {bus : Bus σ} {offset : Word} {bytes : List UInt8} {s t : σ} (hl : bytes.length = accessAlign)
    (h : bus.write offset bytes s = (accessAlign, t)) (words : Nat) (rest : List UInt8) :
    writeWords bus offset (words + 1) (bytes ++ rest) s =
      let more := writeWords bus (offset + 4) words rest t
      (accessAlign + more.1, more.2) := by
  rw [writeWords, List.take_left' hl, List.drop_left' hl]
  rw [bind_run, h]
  rfl

/-- So is a word that is read whole. -/
theorem readWords_succ {bus : Bus σ} {offset : Word} {buffer bytes : List UInt8} {s t : σ}
    (h : bus.read offset (buffer.take accessAlign) s = ((accessAlign, bytes), t)) (words : Nat) :
    readWords bus offset (words + 1) buffer s =
      let more := readWords bus (offset + 4) words (buffer.drop accessAlign) t
      ((accessAlign + more.1.1, bytes ++ more.1.2), more.2) := by
  rw [readWords]
  rw [bind_run, h]
  rfl

open Device

variable {d e f : Device} {offset : Word}

/-- A word of a transfer is written in halves. -/
theorem writeWords_word (d : Device) (hlow : decode offset 4 ≠ .dropped) (hhigh : decode (offset + 4) 4 ≠ .dropped) (w : Word)
    (words : Nat) (rest : List UInt8) :
    writeWords Device.bus offset (words + 2) (w.bytes ++ rest) d =
      let more := writeWords Device.bus (offset + 4 + 4) words rest (Device.bus.writeSplit offset w d).2
      (8 + more.1, more.2) := by
  have hmoved : ∀ (d : Device) {offset : Word} (half : HalfWord), decode offset 4 ≠ .dropped →
      Device.bus.write offset half.bytes d = (accessAlign, (d.write offset half.bytes).2) := by
    intro d offset half hdec
    rw [← HalfWord.length_bytes half] at hdec
    exact Prod.ext ((d.count_write hdec).trans (HalfWord.length_bytes half)) rfl
  rw [Word.bytes_eq, List.append_assoc, writeWords_succ (HalfWord.length_bytes _) (hmoved d w.low hlow),
    writeWords_succ (HalfWord.length_bytes _) (hmoved _ w.high hhigh)]
  simp only [← Nat.add_assoc, accessAlign]
  rfl

/-- A transfer of one word writes it in halves. -/
theorem writeAt_word (d : Device) (hwords : transferWords offset 8 = some 2) (hlow : decode offset 4 ≠ .dropped)
    (hhigh : decode (offset + 4) 4 ≠ .dropped) (w : Word) :
    writeAt Device.bus offset w.bytes d = (8, (Device.bus.writeSplit offset w d).2) := by
  have hword := writeWords_word d hlow hhigh w 0 []
  rw [List.append_nil] at hword
  rw [writeAt, Word.length_bytes, hwords]
  exact hword

/-- A transfer of one word reads it in halves. -/
theorem readAt_word {w : Word} (hwords : transferWords offset 8 = some 2) (hlow : d.read offset 4 = (some w.low.bytes, e))
    (hhigh : e.read (offset + 4) 4 = (some w.high.bytes, f)) {buffer : List UInt8} (hb : buffer.length = 8) :
    readAt Device.bus offset buffer d = ((8, w.bytes), f) := by
  have hfirst : (buffer.take accessAlign).length = 4 := by
    rw [List.length_take, hb]
    rfl
  have hsecond : ((buffer.drop accessAlign).take accessAlign).length = 4 := by
    rw [List.length_take, List.length_drop, hb]
    rfl
  have hend : (buffer.drop accessAlign).drop accessAlign = [] := by
    rw [List.drop_drop, List.drop_eq_nil_of_le]
    rw [hb]
    decide
  rw [readAt, hb, hwords]
  dsimp only
  rw [readWords_succ (bus_read hlow hfirst), readWords_succ (bus_read hhigh hsecond), hend]
  dsimp only
  rw [Word.bytes_eq, readWords]
  change ((8, w.low.bytes ++ (w.high.bytes ++ [])), f) = _
  rw [List.append_nil]

/-! ## Calls -/

/-- A call that submits a word leaves what its two writes leave. -/
theorem submit_eq_writeSplit (d : Device) {a : Word} (ha : a ≠ 0) :
    (submit Device.bus a d).2 = (Device.bus.writeSplit Register.readyTail.address a d).2 := by
  have hlook : ∀ d : Device, (Device.bus.readWord Register.readyTail.address d).2 = d := by
    intro d
    rw [bus_readWord d.read_readyTail]
  rw [submit_run Device.bus ha]
  dsimp only
  rw [hlook, hlook]
  rfl

/-- A call that reclaims shows the word that a read of the whole of `completeHead` would show, and leaves what that leaves. -/
theorem reclaim_eq_read (d : Device) :
    reclaim Device.bus d =
      let head := d.readCompleteHead .full
      (if head.1 = 0 then none else some head.1, head.2) := by
  have hlow := d.read_head_low
  have hhigh := d.read_head_low_high
  rw [hlow] at hhigh
  rw [reclaim_run, bus_readHalf hlow]
  dsimp only
  rw [bus_readHalf hhigh, Word.join_high_low]

/-! ## The registers of the calls -/

/-- The batch factor, written in halves in place, is the one that a command sets at once. -/
theorem writeAt_batchFactor (d : Device) (v : Word) :
    writeAt Device.bus Register.batchFactor.address v.bytes d = (8, (command Device.bus (.modifyBatchFactor v) d).2) := by
  rw [writeAt_word d (by decide) (by decide) (by decide)]
  exact congrArg (Prod.mk 8) (d.write_cell_low_high v .batchFactor)

/-- The size and the address of the snapshot lie side by side, and are set in this order by a command, too. -/
theorem writeAt_snapshot (d : Device) (a z : Word) :
    writeAt Device.bus Register.snapshotSize.address (z.bytes ++ a.bytes) d =
      (16, (command Device.bus (.setSnapshot a z) d).2) := by
  have hwords : transferWords Register.snapshotSize.address 16 = some 4 := by decide
  have hnext : Register.snapshotSize.address + 4 + 4 = Register.snapshotAddress.address := by decide
  have hsize : (Device.bus.writeSplit Register.snapshotSize.address z d).2 =
      (d.write Register.snapshotSize.address z.bytes).2 := d.write_cell_low_high z .snapshotSize
  have hlow : decode Register.snapshotAddress.address 4 ≠ .dropped := by decide
  have haddress := writeWords_word (d.write Register.snapshotSize.address z.bytes).2 hlow (by decide) a 0 []
  rw [List.append_nil] at haddress
  rw [writeAt, List.length_append, Word.length_bytes, Word.length_bytes, hwords]
  dsimp only
  rw [writeWords_word d (by decide) (by decide), hsize, hnext, haddress]
  rfl

/-- A submission writes what the transfer writes, and looks at the tail besides. -/
theorem writeAt_readyTail (d : Device) {a : Word} (ha : a ≠ 0) :
    writeAt Device.bus Register.readyTail.address a.bytes d = (8, (submit Device.bus a d).2) := by
  rw [writeAt_word d (by decide) (by decide) (by decide), submit_eq_writeSplit d ha]

/-- Whatever is written to the doorbell rings it. -/
theorem writeAt_doorbell (d : Device) {bytes : List UInt8} (hl : bytes.length = 4) :
    writeAt Device.bus Register.doorbell.address bytes d = (4, (ringDoorbell Device.bus d).2) := by
  have hdec : decode Register.doorbell.address bytes.length = .register .doorbell .full := by
    rw [hl]
    decide
  have hwords : transferWords Register.doorbell.address 4 = some 1 := by decide
  have hcount : (d.write Register.doorbell.address bytes).1 = accessAlign :=
    (d.count_write (by rw [hdec]; exact nofun)).trans hl
  have hrung : Device.bus.write Register.doorbell.address bytes d = (accessAlign, d.ringDoorbell) :=
    Prod.ext hcount (write_of_rings (by rw [hdec]; rfl))
  have hmoved := writeWords_succ hl hrung 0 []
  rw [List.append_nil] at hmoved
  rw [writeAt, hl, hwords]
  exact hmoved

/-- A reclaim reads what the transfer reads. -/
theorem readAt_completeHead (d : Device) {buffer : List UInt8} (hb : buffer.length = 8) :
    readAt Device.bus Register.completeHead.address buffer d =
      ((8, Word.bytes ((reclaim Device.bus d).1.getD 0)), (reclaim Device.bus d).2) := by
  have hlow := d.read_head_low
  have hhigh := d.read_head_low_high
  rw [hlow] at hhigh
  rw [readAt_word (by decide) hlow hhigh hb, reclaim_eq_read]
  dsimp only
  by_cases hzero : (d.readCompleteHead .full).1 = 0
  · rw [if_pos hzero, hzero]
    rfl
  · rw [if_neg hzero]
    rfl

/-- So does a command that asks for the number of slots. -/
theorem readAt_maxVirtines (d : Device) {buffer : List UInt8} (hb : buffer.length = 8) :
    readAt Device.bus Register.maxVirtines.address buffer d =
      ((8, Word.bytes (command Device.bus .getMaxNumVirtines d).1), (command Device.bus .getMaxNumVirtines d).2) := by
  obtain ⟨hlow, hhigh⟩ := d.read_maxVirtines
  rw [readAt_word (by decide) hlow hhigh hb]
  change _ = ((8, Word.bytes (Device.bus.readSplit Register.maxVirtines.address d).1),
    (Device.bus.readSplit Register.maxVirtines.address d).2)
  rw [bus_readSplit hlow hhigh]

/-- Moving bytes comes to the same as making calls, on every device and whatever is staged or latched in it. A transfer to the
batch factor, to the size and the address of the snapshot, to `readyTail` or to `doorbell` leaves the device as the call does, and
one from `completeHead` or `maxVirtines` also shows the word that the call answers, or zero where that answers none. Every byte is
moved. -/
theorem transfers_agree_with_calls (d : Device) (v a z : Word) :
    writeAt Device.bus Register.batchFactor.address v.bytes d = (8, (command Device.bus (.modifyBatchFactor v) d).2) ∧
      writeAt Device.bus Register.snapshotSize.address (z.bytes ++ a.bytes) d =
        (16, (command Device.bus (.setSnapshot a z) d).2) ∧
      (a ≠ 0 → writeAt Device.bus Register.readyTail.address a.bytes d = (8, (submit Device.bus a d).2)) ∧
      (∀ bytes : List UInt8, bytes.length = 4 →
        writeAt Device.bus Register.doorbell.address bytes d = (4, (ringDoorbell Device.bus d).2)) ∧
      (∀ buffer : List UInt8, buffer.length = 8 →
        readAt Device.bus Register.completeHead.address buffer d =
          ((8, Word.bytes ((reclaim Device.bus d).1.getD 0)), (reclaim Device.bus d).2)) ∧
      ∀ buffer : List UInt8, buffer.length = 8 →
        readAt Device.bus Register.maxVirtines.address buffer d =
          ((8, Word.bytes (command Device.bus .getMaxNumVirtines d).1), (command Device.bus .getMaxNumVirtines d).2) :=
  ⟨writeAt_batchFactor d v, writeAt_snapshot d a z, fun ha => writeAt_readyTail d ha, fun _ hl => writeAt_doorbell d hl,
    fun _ hb => readAt_completeHead d hb, fun _ hb => readAt_maxVirtines d hb⟩

/-- Half a submission is staged, so is half an address of the snapshot, and a word is latched. -/
theorem transfers_agree_with_calls_halfway :
    let d : Device := { Device.initial 7 1 with
      stagedReadyTail := some 3, stagedSnapshotAddress := some 9, completeHeadLatch := some 0x500000001 }
    let a : Word := 0x600002000
    let bytes : List UInt8 := [255, 0, 0, 0]
    let buffer : List UInt8 := .replicate 8 170
    a ≠ 0 ∧ bytes.length = 4 ∧ buffer.length = 8 ∧
      writeAt Device.bus Register.snapshotSize.address ([16, 0, 0, 0, 1, 0, 0, 0] ++ a.bytes) d =
        (16, (command Device.bus (.setSnapshot a 0x100000010) d).2) ∧
      writeAt Device.bus Register.readyTail.address a.bytes d = (8, (submit Device.bus a d).2) ∧
      writeAt Device.bus Register.doorbell.address bytes d = (4, (ringDoorbell Device.bus d).2) ∧
      readAt Device.bus Register.completeHead.address buffer d = ((8, [1, 0, 0, 0, 5, 0, 0, 0]), (reclaim Device.bus d).2) := by
  intro d a bytes buffer
  have ha : a ≠ 0 := by decide
  have hl : bytes.length = 4 := rfl
  have hb : buffer.length = 8 := rfl
  have hlatched : Word.bytes ((reclaim Device.bus d).1.getD 0) = [1, 0, 0, 0, 5, 0, 0, 0] := by decide
  obtain ⟨-, hsnapshot, hsubmit, hdoorbell, hreclaim, -⟩ := transfers_agree_with_calls d 0 a 0x100000010
  rw [hlatched] at hreclaim
  exact ⟨ha, hl, hb, hsnapshot, hsubmit ha, hdoorbell bytes hl, hreclaim buffer hb⟩

end Host

end VirtineCleaning

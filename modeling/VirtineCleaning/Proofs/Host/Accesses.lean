import VirtineCleaning.Proofs.Device.Halves
import VirtineCleaning.Proofs.Host.Calm

/-!
# The accesses of a submission and of a reclaim

A submission reads the tail of the Ready Queue, stages the low half of its word, submits with the high half and reads the tail
again. A reclaim takes an address off the Complete Queue with the read of its low half, which latches it for the read of the high
half. This module says what each of these accesses shows and leaves when other things fall before it.
-/

namespace VirtineCleaning

open History

/-! ## The accesses of a submission and a reclaim -/

namespace Device

/-- A read of the whole of `readyTail` shows the tail. -/
theorem read_readyTail (d : Device) :
    d.read Register.readyTail.address 8 = (some (Word.bytes (UInt64.ofNat d.ready.tail.val)), d) := by
  have hdec : decode Register.readyTail.address 8 = .register .readyTail .full := by decide
  simp only [read, hdec, readPart, Part.extract, Word.bytes]

/-- A write of the low half of `readyTail` stages it. -/
theorem write_readyTail_low (d : Device) (half : HalfWord) :
    (d.write Register.readyTail.address half.bytes).2 = { d with stagedReadyTail := some half } ∧
      d.writeEvents Register.readyTail.address half.bytes = [] := by
  have hdec : decode Register.readyTail.address 4 = .register .readyTail .low := by decide
  refine ⟨d.write_low half .readyTail, ?_⟩
  simp [writeEvents, submission?, rings, hdec]

/-- A read of the low half of `completeHead` reclaims a word and latches it, if none is latched. -/
theorem read_completeHead_low {d : Device} (h : d.completeHeadLatch = none) :
    d.read Register.completeHead.address 4 =
        (some d.dequeue.1.low.bytes, { d.dequeue.2 with completeHeadLatch := some d.dequeue.1 }) ∧
      d.readEvents Register.completeHead.address 4 = d.dequeueEvents := by
  have hdec : decode Register.completeHead.address 4 = .register .completeHead .low := by decide
  have hwhole : d.readCompleteHead .full = d.dequeue := by simp [readCompleteHead, h]
  refine ⟨by rw [read_head_low, hwhole], ?_⟩
  simp [readEvents, reclaims, hdec, h]

/-- A read of the high half of `completeHead` ends the latch. -/
theorem read_completeHead_high {d : Device} {w : Word} (h : d.completeHeadLatch = some w) :
    d.read (Register.completeHead.address + 4) 4 = (some w.high.bytes, { d with completeHeadLatch := none }) ∧
      d.readEvents (Register.completeHead.address + 4) 4 = [] := by
  have hdec : decode (Register.completeHead.address + 4) 4 = .register .completeHead .high := by decide
  refine ⟨read_head_high h, ?_⟩
  simp [readEvents, reclaims, hdec]

/-- A word that is submitted is refused by a full queue, which stays as it is, or it enters at the tail. -/
theorem enqueue_outcome {d : Device} (h : d.ready.Holds d.ready.toList) {a : Word} (ha : a ≠ 0) :
    d.submitEvents a = [.rejectedFull ⟨a, ha⟩] ∧
        (d.enqueue a).stats.rejectedFull = d.stats.rejectedFull + 1 ∧
        d.ready.isFull = true ∧ (d.enqueue a).ready = d.ready ∨
      d.submitEvents a = [.accepted ⟨a, ha⟩] ∧
        (d.enqueue a).stats.rejectedFull = d.stats.rejectedFull ∧
        d.ready.isFull = false ∧ (d.enqueue a).ready.toList = d.ready.toList ++ [⟨a, ha⟩] ∧
        (d.enqueue a).ready.tail = Ring.next d.ready.tail := by
  have hcase := d.enqueue_case a
  generalize d.enqueue a = next, d.submitEvents a = events at hcase
  cases hcase with
  | zero hw => exact absurd hw ha
  | full hw hi =>
    subst hw
    exact Or.inl ⟨rfl, rfl, Ring.isFull_of_insert hi, rfl⟩
  | accepted hw hi =>
    subst hw
    obtain ⟨hroom, htail⟩ := Ring.tail_of_insert hi
    obtain ⟨-, hholds, -⟩ := h.of_insert hi
    exact Or.inr ⟨rfl, rfl, hroom, hholds.toList_eq, htail⟩

end Device

/-- The indices of a ring differ as the words that show them. -/
theorem ofNat_val_inj {i j : Fin maxVirtines} (h : UInt64.ofNat i.val = UInt64.ofNat j.val) : i = j := by
  have hi : i.val < 100 := i.isLt
  have hj : j.val < 100 := j.isLt
  have hval := congrArg UInt64.toNat h
  rw [UInt64.toNat_ofNat', UInt64.toNat_ofNat'] at hval
  exact Fin.ext (by omega)

namespace Host

variable {σ : Type}

/-- The accesses of a submission, one after the other. -/
theorem submit_run (bus : Bus σ) {a : Word} (ha : a ≠ 0) (s : σ) :
    submit bus a s =
      let before := bus.readWord Register.readyTail.address s
      let low := bus.writeHalf Register.readyTail.address a.low before.2
      let high := bus.writeHalf (Register.readyTail.address + 4) a.high low.2
      let after := bus.readWord Register.readyTail.address high.2
      (if after.1 = before.1 then .error .queueFull else .ok (), after.2) := by
  rw [submit, if_neg ha]
  rfl

/-- The accesses of a reclaim. -/
theorem reclaim_run (bus : Bus σ) (s : σ) :
    reclaim bus s =
      let low := bus.readHalf Register.completeHead.address s
      let high := bus.readHalf (Register.completeHead.address + 4) low.2
      (if Word.join high.1 low.1 = 0 then none else some (Word.join high.1 low.1), high.2) := rfl

end Host

/-! ## Windows that are shared -/

section

variable {σ μ : Type} [VirtineMemory μ]

/-- Reads over a bus whose worlds stand for chronicles: before each of them something leads on calmly, to a moment at which some
facts are due. -/
structure Bus.Shares (b : Bus σ) (At : σ → Chronicle μ → Prop) (Due : Moment → Prop) : Prop where
  read : ∀ {s c} (offset : Word) (buffer : List UInt8), At s c → ∃ d, c.Leads d ∧ Due d.now ∧
    (b.read offset buffer s).1 = (Machine.window.read offset buffer d.machine).1 ∧
    At (b.read offset buffer s).2 (d.act (.read offset buffer.length))

/-- Over the bus the register `readyTail` is written, too. -/
structure Bus.Submits (b : Bus σ) (At : σ → Chronicle μ → Prop) (Due : Moment → Prop) : Prop extends b.Shares At Due where
  write : ∀ {s c part} (offset : Word) (bytes : List UInt8), decode offset bytes.length = .register .readyTail part → At s c →
    ∃ d, c.Leads d ∧ At (b.write offset bytes s).2 (d.act (.write offset bytes))

/-- The window that the worker and other callers share is such a bus, with any schedule that is left over. -/
theorem Chronicle.submits_shared :
    (shared : Bus (Chronicle μ × Schedule)).Submits (fun s c => s.1 = c) fun _ => True where
  read := by
    rintro ⟨c, schedule⟩ _ offset buffer rfl
    exact ⟨_, c.leads_steps _, trivial, rfl, rfl⟩
  write := by
    rintro ⟨c, schedule⟩ _ part offset bytes - rfl
    exact ⟨_, c.leads_steps _, rfl⟩

end

namespace Bus

variable {σ μ : Type} [VirtineMemory μ] {b : Bus σ} {At : σ → Chronicle μ → Prop} {Due : Moment → Prop} {s : σ} {c : Chronicle μ}

/-- A read of a word is led up to calmly. -/
theorem Shares.readWord (hb : b.Shares At Due) (hs : At s c) (offset : Word) :
    ∃ d s', c.Leads d ∧ Due d.now ∧ At s' (d.act (.read offset 8)) ∧
      b.readWord offset s = (Word.ofBytes (Machine.window.read offset (List.replicate 8 0) d.machine).1.2, s') := by
  obtain ⟨d, hleads, hdue, hanswer, hat⟩ := hb.read offset (List.replicate 8 0) hs
  refine ⟨d, _, hleads, hdue, hat, ?_⟩
  rw [← hanswer]
  rfl

/-- So is a read of a half word. -/
theorem Shares.readHalf (hb : b.Shares At Due) (hs : At s c) (offset : Word) :
    ∃ d s', c.Leads d ∧ Due d.now ∧ At s' (d.act (.read offset 4)) ∧
      b.readHalf offset s = (HalfWord.ofBytes (Machine.window.read offset (List.replicate 4 0) d.machine).1.2, s') := by
  obtain ⟨d, hleads, hdue, hanswer, hat⟩ := hb.read offset (List.replicate 4 0) hs
  refine ⟨d, _, hleads, hdue, hat, ?_⟩
  rw [← hanswer]
  rfl

/-- And so is a write of a half of `readyTail`. -/
theorem Submits.writeHalf (hb : b.Submits At Due) (hs : At s c) {offset : Word} {part : Part}
    (hdec : decode offset 4 = .register .readyTail part) (half : HalfWord) :
    ∃ d, c.Leads d ∧ At (b.writeHalf offset half s).2 (d.act (.write offset half.bytes)) :=
  hb.write offset half.bytes (by rw [HalfWord.length_bytes, hdec]) hs

/-- A read of the whole of `readyTail` is quiet itself, and shows the tail. -/
theorem Shares.readyTail (hb : b.Shares At Due) (hs : At s c) :
    ∃ d s', c.Leads d ∧ At s' d ∧
      b.readWord Register.readyTail.address s = (UInt64.ofNat d.machine.device.ready.tail.val, s') := by
  obtain ⟨d, s', hleads, -, hat, hread⟩ := hb.readWord hs Register.readyTail.address
  have hquiet : (Action.read Register.readyTail.address 8).isQuiet = true := by decide
  have htail : (d.act (.read Register.readyTail.address 8)).machine.device.ready.tail = d.machine.device.ready.tail :=
    (d.calm_act (.refl d.now) hquiet).tail
  refine ⟨d.act (.read Register.readyTail.address 8), s', hleads.act hquiet, hat, ?_⟩
  rw [hread, htail]
  simp only [Machine.window, Bus.focus, Device.bus, List.length_replicate, Device.read_readyTail, Word.ofBytes_bytes]

/-- A read of the low half of `completeHead` is led up to calmly, and shows what it reclaims if nothing is latched. -/
theorem Shares.completeHead_low (hb : b.Shares At Due) (hs : At s c) (h : c.now.device.completeHeadLatch = none) :
    ∃ d s', c.Leads d ∧ Due d.now ∧ At s' (d.act (.read Register.completeHead.address 4)) ∧
      b.readHalf Register.completeHead.address s = (d.machine.device.dequeue.1.low, s') := by
  obtain ⟨d, s', hleads, hdue, hat, hread⟩ := hb.readHalf hs Register.completeHead.address
  have hlatch : d.machine.device.completeHeadLatch = none := hleads.calm.latch.trans h
  refine ⟨d, s', hleads, hdue, hat, ?_⟩
  rw [hread]
  simp only [Machine.window, Bus.focus, Device.bus, List.length_replicate, (Device.read_completeHead_low hlatch).1,
    HalfWord.ofBytes_bytes]

/-- A read of the high half of `completeHead` is led up to calmly, and shows the high half of what is latched. -/
theorem Shares.completeHead_high (hb : b.Shares At Due) (hs : At s c) {w : Word}
    (h : c.now.device.completeHeadLatch = some w) :
    ∃ d s', c.Leads d ∧ At s' (d.act (.read (Register.completeHead.address + 4) 4)) ∧
      b.readHalf (Register.completeHead.address + 4) s = (w.high, s') := by
  obtain ⟨d, s', hleads, -, hat, hread⟩ := hb.readHalf hs (Register.completeHead.address + 4)
  have hlatch : d.machine.device.completeHeadLatch = some w := hleads.calm.latch.trans h
  refine ⟨d, s', hleads, hat, ?_⟩
  rw [hread]
  simp only [Machine.window, Bus.focus, Device.bus, List.length_replicate, (Device.read_completeHead_high hlatch).1,
    HalfWord.ofBytes_bytes]

end Bus

end VirtineCleaning

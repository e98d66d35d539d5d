import VirtineCleaning.Memory.Dense
import VirtineCleaning.Proofs.Device.History
import VirtineCleaning.Proofs.Register.Places
import VirtineCleaning.Proofs.Word

/-!
# Accesses in halves

A host with a 32-bit bus moves a word in two accesses. Two registers take a word so: the low half is staged, and the high half
commits both. The head of the Complete Queue gives one so: the low half takes an address off the queue and latches it, and the high
half ends the latch. Two halves do what one access to the whole word does, and what falls between them does not matter as long as
it writes no half of the same register, or does not read the head of the Complete Queue (`split_accesses_agree`): nothing else
touches the staged halves and the latch.
-/

namespace VirtineCleaning

/-! ## Registers that are written in halves -/

/-- The registers whose low half is staged until their high half commits both. -/
inductive StagedRegister where
  | readyTail
  | snapshotAddress
deriving DecidableEq, Repr

/-- The register in the window. -/
def StagedRegister.register : StagedRegister → Register
  | .readyTail => .readyTail
  | .snapshotAddress => .snapshotAddress

/-- Where the register lies in the window. -/
def StagedRegister.address (r : StagedRegister) : Word := r.register.address

namespace Device

/-- The low half that is staged for a register. -/
def staged (d : Device) : StagedRegister → Option HalfWord
  | .readyTail => d.stagedReadyTail
  | .snapshotAddress => d.stagedSnapshotAddress

/-- The device with another low half staged for a register, or none. -/
def stage (d : Device) (half : Option HalfWord) : StagedRegister → Device
  | .readyTail => { d with stagedReadyTail := half }
  | .snapshotAddress => { d with stagedSnapshotAddress := half }

/-- What a whole word does to a register: it is submitted, or it is the new address of the snapshot. -/
def commit (d : Device) (w : Word) : StagedRegister → Device
  | .readyTail => d.enqueue w
  | .snapshotAddress => { d with snapshot := { d.snapshot with address := w } }

variable {d : Device}

@[simp] theorem staged_stage (d : Device) (half : Option HalfWord) (r : StagedRegister) :
    (d.stage half r).staged r = half := by
  cases r <;> rfl

@[simp] theorem stage_stage (d : Device) (half half' : Option HalfWord) (r : StagedRegister) :
    (d.stage half r).stage half' r = d.stage half' r := by
  cases r <;> rfl

/-- Submitting a word neither looks at a staged half nor changes one. -/
theorem enqueue_stage (d : Device) (half : Option HalfWord) (w : Word) (r : StagedRegister) :
    (d.stage half r).enqueue w = (d.enqueue w).stage half r := by
  have hready : (d.stage half r).ready = d.ready := by cases r <;> rfl
  unfold enqueue
  rw [hready]
  split
  · cases r <;> rfl
  · split <;> cases r <;> rfl

theorem commit_stage (d : Device) (half : Option HalfWord) (w : Word) (r : StagedRegister) :
    (d.stage half r).commit w r = (d.commit w r).stage half r := by
  cases r with
  | readyTail => exact d.enqueue_stage half w .readyTail
  | snapshotAddress => rfl

/-! ## Writes of a staged register -/

/-- A write of the whole register commits the word. -/
theorem write_full (d : Device) (w : Word) (r : StagedRegister) :
    (d.write r.address w.bytes).2 = d.commit w r := by
  cases r with
  | readyTail =>
    have hdec : decode StagedRegister.readyTail.address 8 = .register .readyTail .full := by decide
    simp only [write, Word.length_bytes, hdec, writePart, writeReadyTail, Word.ofBytes_bytes, commit]
  | snapshotAddress =>
    have hdec : decode StagedRegister.snapshotAddress.address 8 = .register .snapshotAddress .full := by decide
    simp only [write, Word.length_bytes, hdec, writePart, writeSnapshotAddress, Word.ofBytes_bytes, commit]

/-- A write of the low half stages it. -/
theorem write_low (d : Device) (half : HalfWord) (r : StagedRegister) :
    (d.write r.address half.bytes).2 = d.stage (some half) r := by
  cases r with
  | readyTail =>
    have hdec : decode StagedRegister.readyTail.address 4 = .register .readyTail .low := by decide
    simp only [write, HalfWord.length_bytes, hdec, writePart, writeReadyTail, HalfWord.low_ofBytes_bytes, stage]
  | snapshotAddress =>
    have hdec : decode StagedRegister.snapshotAddress.address 4 = .register .snapshotAddress .low := by decide
    simp only [write, HalfWord.length_bytes, hdec, writePart, writeSnapshotAddress, HalfWord.low_ofBytes_bytes, stage]

/-- A write of the high half commits it with the low half that is staged, and nothing is staged after it. -/
theorem write_high (d : Device) (half : HalfWord) (r : StagedRegister) :
    (d.write (r.address + 4) half.bytes).2 =
      (d.commit (Word.join half ((d.staged r).getD 0)) r).stage none r := by
  rw [← commit_stage]
  cases r with
  | readyTail =>
    have hdec : decode (StagedRegister.readyTail.address + 4) 4 = .register .readyTail .high := by decide
    simp only [write, HalfWord.length_bytes, hdec, writePart, writeReadyTail, HalfWord.low_ofBytes_bytes, stage, staged,
      commit]
  | snapshotAddress =>
    have hdec : decode (StagedRegister.snapshotAddress.address + 4) 4 = .register .snapshotAddress .high := by decide
    simp only [write, HalfWord.length_bytes, hdec, writePart, writeSnapshotAddress, HalfWord.low_ofBytes_bytes, stage,
      staged, commit]

/-- Once its low half is staged, the high half of a word does what the whole word does, and nothing is staged after it. -/
theorem write_high_of_staged {w : Word} {r : StagedRegister} (h : d.staged r = some w.low) :
    (d.write (r.address + 4) w.high.bytes).2 = (d.write r.address w.bytes).2.stage none r := by
  rw [write_high, write_full, h, Option.getD_some, Word.join_high_low]

/-- A word in two halves does what the whole word does, and nothing is staged after it. -/
theorem write_low_high (d : Device) (w : Word) (r : StagedRegister) :
    ((d.write r.address w.low.bytes).2.write (r.address + 4) w.high.bytes).2 =
      (d.write r.address w.bytes).2.stage none r := by
  rw [write_low, write_high_of_staged (staged_stage _ _ _), write_full, write_full, commit_stage, stage_stage]

/-- A whole word leaves what is staged. -/
theorem staged_write_full (d : Device) (w : Word) (r : StagedRegister) :
    (d.write r.address w.bytes).2.staged r = d.staged r := by
  have hsame : d.stage (d.staged r) r = d := by cases r <;> rfl
  have hcommit := d.commit_stage (d.staged r) w r
  rw [hsame] at hcommit
  rw [write_full, hcommit, staged_stage]

/-! ## The head of the Complete Queue, read in halves -/

/-- A reclaim leaves the latch to the read that it is made for. -/
theorem latch_dequeue (d : Device) : d.dequeue.2.completeHeadLatch = d.completeHeadLatch := by
  have hcase := d.dequeue_case
  generalize d.dequeue = next, d.dequeueEvents = events at hcase
  cases hcase <;> rfl

/-- After a read of the whole head nothing is latched. -/
theorem latch_readCompleteHead (d : Device) : (d.readCompleteHead .full).2.completeHeadLatch = none := by
  unfold readCompleteHead
  cases hlatch : d.completeHeadLatch with
  | none => exact d.latch_dequeue.trans hlatch
  | some latched => rfl

/-- A whole read of `completeHead` is one access of the head. -/
theorem read_head_whole (d : Device) :
    d.read Register.completeHead.address 8 =
      (some (d.readCompleteHead .full).1.bytes, (d.readCompleteHead .full).2) := by
  have hdec : decode Register.completeHead.address 8 = .register .completeHead .full := by decide
  simp only [read, hdec, readPart, Word.bytes]

/-- A read of the low half shows the low half of what the whole head would show, and latches it. -/
theorem read_head_low (d : Device) :
    d.read Register.completeHead.address 4 =
      (some (d.readCompleteHead .full).1.low.bytes,
        { (d.readCompleteHead .full).2 with completeHeadLatch := some (d.readCompleteHead .full).1 }) := by
  have hdec : decode Register.completeHead.address 4 = .register .completeHead .low := by decide
  simp only [read, hdec, readPart, readCompleteHead]
  cases hlatch : d.completeHeadLatch with
  | none => simp [Part.extract, HalfWord.bytes]
  | some latched =>
    have hsame : d = { d with completeHeadLatch := some latched } := by rw [← hlatch]
    simpa [Part.extract, HalfWord.bytes] using hsame

/-- A read of the high half shows the high half of what is latched, and ends the latch. -/
theorem read_head_high {w : Word} (h : d.completeHeadLatch = some w) :
    d.read (Register.completeHead.address + 4) 4 = (some w.high.bytes, { d with completeHeadLatch := none }) := by
  have hdec : decode (Register.completeHead.address + 4) 4 = .register .completeHead .high := by decide
  simp [read, hdec, readPart, readCompleteHead, h, Part.extract, HalfWord.bytes]

/-- The two halves, read one after the other, leave the device as a read of the whole head does. -/
theorem read_head_low_high (d : Device) :
    (d.read Register.completeHead.address 4).2.read (Register.completeHead.address + 4) 4 =
      (some (d.readCompleteHead .full).1.high.bytes, (d.readCompleteHead .full).2) := by
  have hlatch := d.latch_readCompleteHead
  rw [read_head_low, read_head_high rfl]
  generalize d.readCompleteHead .full = next at hlatch ⊢
  rw [← hlatch]

/-! ## What accesses leave halfway -/

/-- The words that are halfway through an access: the two staged halves and the latched word. -/
def halfway (d : Device) : Option HalfWord × Option HalfWord × Option Word :=
  (d.stagedReadyTail, d.stagedSnapshotAddress, d.completeHeadLatch)

theorem staged_of_halfway {d e : Device} (h : e.halfway = d.halfway) (r : StagedRegister) : e.staged r = d.staged r := by
  simp only [halfway, Prod.mk.injEq] at h
  cases r with
  | readyTail => exact h.1
  | snapshotAddress => exact h.2.1

theorem latch_of_halfway {d e : Device} (h : e.halfway = d.halfway) : e.completeHeadLatch = d.completeHeadLatch := by
  simp only [halfway, Prod.mk.injEq] at h
  exact h.2.2

theorem halfway_enqueue (d : Device) (w : Word) : (d.enqueue w).halfway = d.halfway := by
  have hcase := d.enqueue_case w
  generalize d.enqueue w = next, d.submitEvents w = events at hcase
  cases hcase <;> rfl

theorem halfway_ringDoorbell (d : Device) : d.ringDoorbell.halfway = d.halfway := by
  unfold ringDoorbell
  split <;> rfl

/-- A read stages nothing. -/
theorem staged_read (d : Device) (offset : Word) (length : Nat) (r : StagedRegister) :
    (d.read offset length).2.staged r = d.staged r := by
  have hcase := d.read_case offset length
  generalize (d.read offset length).2 = next, d.readEvents offset length = events at hcase
  cases hcase with
  | reclaims =>
    have hcase := d.dequeue_case
    generalize d.dequeue = next, d.dequeueEvents = events at hcase
    cases hcase <;> cases r <;> rfl
  | looks => cases r <;> rfl

/-- A write latches nothing. -/
theorem latch_write (d : Device) (offset : Word) (bytes : List UInt8) :
    (d.write offset bytes).2.completeHeadLatch = d.completeHeadLatch := by
  have hcase := d.write_case offset bytes
  generalize d.submission? offset bytes = submission, (d.write offset bytes).2 = next,
    d.writeEvents offset bytes = events at hcase
  cases hcase with
  | submits w staged => exact (enqueue_frame { d with stagedReadyTail := staged } w).1
  | rings => exact latch_of_halfway d.halfway_ringDoorbell
  | sets => rfl

end Device

/-! ## Accesses to one register -/

/-- The action writes a half of a register. -/
def Action.writesHalf (r : Register) : Action → Bool
  | .write offset bytes =>
    match decode offset bytes.length with
    | .register register _ => register == r && bytes.length == 4
    | _ => false
  | _ => false

/-- The action reads or writes the window. -/
def Action.isTransfer : Action → Bool
  | .read .. | .write .. => true
  | _ => false

/-- The action reads a register, the whole or a half of it. -/
def Action.reads (r : Register) : Action → Bool
  | .read offset length =>
    match decode offset length with
    | .register register _ => register == r
    | _ => false
  | _ => false

/-- A half of a register is four bytes long. -/
theorem length_of_decode_half {offset : Word} {length : Nat} {r : Register} {part : Part}
    (h : decode offset length = .register r part) (hhalf : part ≠ .full) : length = 4 := by
  obtain ⟨_, -, -, -, hpart⟩ := decode_eq_register_iff.1 h
  cases part with
  | full => contradiction
  | low => exact hpart.2.2
  | high => exact hpart.2.2

namespace Device

/-- Only a half of a register is staged for it. -/
theorem staged_writePart (d : Device) {part : Part} (value : Word) {register : Register} {r : StagedRegister}
    (hwhole : register = r.register → part = .full) : (d.writePart part value register).staged r = d.staged r := by
  cases register with
  | readyTail =>
    cases part with
    | full => exact staged_of_halfway (d.halfway_enqueue value) r
    | low =>
      cases r with
      | readyTail => cases hwhole rfl
      | snapshotAddress => rfl
    | high =>
      cases r with
      | readyTail => cases hwhole rfl
      | snapshotAddress => exact staged_of_halfway (halfway_enqueue { d with stagedReadyTail := none } _) .snapshotAddress
  | snapshotAddress =>
    cases part with
    | full => cases r <;> rfl
    | low =>
      cases r with
      | readyTail => rfl
      | snapshotAddress => cases hwhole rfl
    | high =>
      cases r with
      | readyTail =>
        -- The new address is kept out of sight: a comparison by computation would work out the word it is joined to.
        obtain ⟨_, heq⟩ : ∃ snapshot, d.writePart .high value .snapshotAddress =
            { d with stagedSnapshotAddress := none, snapshot } := ⟨_, rfl⟩
        rw [heq]
        rfl
      | snapshotAddress => cases hwhole rfl
  | doorbell => exact staged_of_halfway d.halfway_ringDoorbell r
  | _ => cases r <;> rfl

/-- A write that is not to a half of a register leaves what is staged for it. -/
theorem staged_write (d : Device) {offset : Word} {bytes : List UInt8} {r : StagedRegister}
    (hw : (Action.write offset bytes).writesHalf r.register = false) :
    (d.write offset bytes).2.staged r = d.staged r := by
  unfold write
  split
  · rfl
  · rfl
  · rfl
  · rename_i register part hdec
    refine d.staged_writePart (Word.ofBytes bytes) ?_
    rintro rfl
    by_contra hhalf
    have hlength := length_of_decode_half hdec hhalf
    simp only [Action.writesHalf, hdec] at hw
    simp [hlength] at hw

/-- A read of anything but the head of the Complete Queue changes nothing. -/
theorem read_of_not_reads (d : Device) {offset : Word} {length : Nat}
    (hr : (Action.read offset length).reads .completeHead = false) : (d.read offset length).2 = d := by
  unfold read
  split
  · rfl
  · rfl
  · rename_i register part hdec
    cases register with
    | completeHead => simp [Action.reads, hdec] at hr
    | _ => rfl
  · rfl

end Device

namespace Machine

variable {μ : Type} [VirtineMemory μ]

/-- Only a read or a write touches what is halfway through an access. -/
theorem halfway_apply (m : Machine μ) {a : Action} (ha : a.isTransfer = false) :
    (m.apply a).device.halfway = m.device.halfway := by
  have hclean : ∀ m : Machine μ, (m.apply .cleanNext).device.halfway = m.device.halfway := by
    intro m
    obtain ⟨_, _, _, _, _, _, heq, -⟩ := m.cleanNext_frame
    simp only [apply, heq]
    rfl
  cases a with
  | read offset length => cases ha
  | write offset bytes => cases ha
  | signal => exact m.device.halfway_ringDoorbell
  | cleanNext => exact hclean m
  | processReadyQueue =>
    refine processReadyQueue_of_steps (P := fun n _ => n.device.halfway = m.device.halfway) (h := [])
      (fun a ha n _ hn => ?_) rfl
    simp only [List.mem_cons, List.not_mem_nil, or_false] at ha
    rcases ha with rfl | rfl | rfl
    · exact hn
    · exact (hclean n).trans hn
    · exact hn
  | work =>
    obtain ⟨_, _, _, _, _, _, _, _, _, heq, -⟩ := m.workerStep_frame
    simp only [apply, heq]
    rfl
  | requestStop => rfl
  | beginPass => rfl
  | endPass => rfl

/-- An action that writes no half of a register leaves what is staged for it. -/
theorem staged_apply (m : Machine μ) {a : Action} {r : StagedRegister} (hw : a.writesHalf r.register = false) :
    (m.apply a).device.staged r = m.device.staged r := by
  cases a with
  | read offset length => exact m.device.staged_read offset length r
  | write offset bytes => exact m.device.staged_write hw
  | _ => exact Device.staged_of_halfway (m.halfway_apply rfl) r

/-- An action that does not read the head of the Complete Queue leaves what is latched. -/
theorem latch_apply (m : Machine μ) {a : Action} (hr : a.reads .completeHead = false) :
    (m.apply a).device.completeHeadLatch = m.device.completeHeadLatch := by
  cases a with
  | read offset length => exact congrArg Device.completeHeadLatch (m.device.read_of_not_reads hr)
  | write offset bytes => exact m.device.latch_write offset bytes
  | _ => exact Device.latch_of_halfway (m.halfway_apply rfl)

/-- A half stays staged as long as its register is not written. -/
theorem staged_run (m : Machine μ) {actions : List Action} {r : StagedRegister}
    (hw : ∀ a ∈ actions, a.writesHalf r.register = false) :
    (m.run actions).device.staged r = m.device.staged r :=
  run_of_steps (P := fun n _ => n.device.staged r = m.device.staged r) (h := [])
    (fun a ha n _ hn => (n.staged_apply (hw a ha)).trans hn) rfl

/-- A latch stays as long as `completeHead` is not read. -/
theorem latch_run (m : Machine μ) {actions : List Action} (hr : ∀ a ∈ actions, a.reads .completeHead = false) :
    (m.run actions).device.completeHeadLatch = m.device.completeHeadLatch :=
  run_of_steps (P := fun n _ => n.device.completeHeadLatch = m.device.completeHeadLatch) (h := [])
    (fun a ha n _ hn => (n.latch_apply (hr a ha)).trans hn) rfl

/-- Two accesses to the halves of a word do what one access to the whole word does, whatever was staged or latched before. A word
written in halves leaves nothing staged, where the whole word leaves what was; the head of the Complete Queue read in halves shows
the two halves of the word that it shows whole, and leaves the same device. Any actions may fall in between: as long as they write
no half of the same register, the high half still commits the word as the whole word would at that moment, and as long as they do
not read the head of the Complete Queue, the high half is still the one of the same word, and its read ends the latch and does
nothing else. -/
theorem split_accesses_agree (m : Machine μ) (v : Word) (between : List Action) :
    (∀ r : StagedRegister,
      ((m.device.write r.address v.low.bytes).2.write (r.address + 4) v.high.bytes).2 =
          (m.device.write r.address v.bytes).2.stage none r ∧
        (m.device.write r.address v.bytes).2.staged r = m.device.staged r ∧
        ((∀ a ∈ between, a.writesHalf r.register = false) →
          let n := (m.apply (.write r.address v.low.bytes)).run between
          (n.device.write (r.address + 4) v.high.bytes).2 = (n.device.write r.address v.bytes).2.stage none r)) ∧
      ∃ (w : Word) (d : Device),
        m.device.read Register.completeHead.address 8 = (some w.bytes, d) ∧
        (m.device.read Register.completeHead.address 4).1 = some w.low.bytes ∧
        (m.device.read Register.completeHead.address 4).2.read (Register.completeHead.address + 4) 4 =
          (some w.high.bytes, d) ∧
        ((∀ a ∈ between, a.reads .completeHead = false) →
          let n := (m.apply (.read Register.completeHead.address 4)).run between
          n.device.read (Register.completeHead.address + 4) 4 =
            (some w.high.bytes, { n.device with completeHeadLatch := none })) := by
  refine ⟨fun r => ⟨m.device.write_low_high v r, m.device.staged_write_full v r, fun hw => ?_⟩, _, _,
    m.device.read_head_whole, congrArg Prod.fst m.device.read_head_low,
    m.device.read_head_low_high, fun hr => ?_⟩
  · refine Device.write_high_of_staged ((staged_run _ hw).trans ?_)
    simp only [apply, mapDevice, Device.write_low, Device.staged_stage]
  · refine Device.read_head_high ((latch_run _ hr).trans ?_)
    simp only [apply, mapDevice, Device.read_head_low]

/-- Between the halves of a submission and of a reclaim, another word is submitted whole, the doorbell is rung and a pass is run. -/
theorem split_accesses_agree_amid_a_pass :
    let m := (fresh (DenseMemory.zeros 0) 1 (.ofCapacity 1)).run
      [.write Register.readyTail.address [0, 16, 0, 0, 5, 0, 0, 0], .processReadyQueue]
    let between : List Action :=
      [.write Register.readyTail.address [0, 32, 0, 0, 0, 0, 0, 0], .signal, .beginPass, .cleanNext, .endPass]
    let v : Word := 0x500003000
    let n := (m.apply (.write Register.readyTail.address v.low.bytes)).run between
    let k := (m.apply (.read Register.completeHead.address 4)).run between
    (∀ a ∈ between, a.writesHalf .readyTail = false) ∧ (∀ a ∈ between, a.reads .completeHead = false) ∧
      (n.device.write (Register.readyTail.address + 4) v.high.bytes).2 =
        (n.device.write Register.readyTail.address v.bytes).2.stage none .readyTail ∧
      ∃ w : Word, (m.device.read Register.completeHead.address 8).1 = some w.bytes ∧
        (m.device.read Register.completeHead.address 4).1 = some w.low.bytes ∧
        (k.device.read (Register.completeHead.address + 4) 4).1 = some w.high.bytes := by
  intro m between v n k
  have hw : ∀ a ∈ between, a.writesHalf .readyTail = false := by decide
  have hr : ∀ a ∈ between, a.reads .completeHead = false := by decide
  obtain ⟨hwrites, w, _, hwhole, hlow, -, hhigh⟩ := split_accesses_agree m v between
  obtain ⟨-, -, hcommit⟩ := hwrites .readyTail
  exact ⟨hw, hr, hcommit hw, w, congrArg Prod.fst hwhole, hlow, congrArg Prod.fst (hhigh hr)⟩

end Machine

end VirtineCleaning

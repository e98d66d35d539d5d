import VirtineCleaning.Device.Window
import VirtineCleaning.Device.Worker
import VirtineCleaning.Proofs.Ring.Contents

/-!
# What one step of a machine can do

Every step said once: a read of the window touches the latch and at most takes an address off the Complete Queue, a write submits
a word, rings the doorbell or changes a setting, a step of cleaning stops, finds nothing, stalls or takes an address off the Ready
Queue, and the worker does one of these according to its phase. Statements about runs are read off these cases.
-/

namespace VirtineCleaning

namespace Device

/-! ## Accesses to the window -/

/-- A read that falls on `target` takes an address off the Complete Queue: it reads `completeHead` whole or its low half, and no
earlier read of the low half is still to be ended. -/
def reclaims (d : Device) : Target → Bool
  | .register .completeHead .full | .register .completeHead .low => d.completeHeadLatch.isNone
  | _ => false

/-- The word that a write hands to the Ready Queue: a write of the whole of `readyTail`, or of its high half, which joins the low
half that was staged. -/
def submission? (d : Device) (offset : Word) (bytes : List UInt8) : Option Word :=
  match decode offset bytes.length with
  | .register .readyTail .full => some (Word.ofBytes bytes)
  | .register .readyTail .high => some (Word.join (Word.ofBytes bytes).low (d.stagedReadyTail.getD 0))
  | _ => none

/-- A write that falls on `target` rings the doorbell. -/
def rings : Target → Bool
  | .register .doorbell _ => true
  | _ => false

/-- A read that reclaims leaves what taking an address off the Complete Queue leaves, but for the latch. -/
theorem read_of_reclaims {d : Device} {offset : Word} {length : Nat} (h : d.reclaims (decode offset length) = true) :
    ∃ latch, (d.read offset length).2 = { d.dequeue.2 with completeHeadLatch := latch } := by
  unfold reclaims at h
  split at h
  · rename_i hdec
    have hlatch := Option.isNone_iff_eq_none.1 h
    refine ⟨d.dequeue.2.completeHeadLatch, ?_⟩
    simp only [read, hdec, readPart, readCompleteHead, hlatch]
  · rename_i hdec
    have hlatch := Option.isNone_iff_eq_none.1 h
    refine ⟨some d.dequeue.1, ?_⟩
    simp only [read, hdec, readPart, readCompleteHead, hlatch]
  · cases h

/-- Any other read leaves the device as it is, but for the latch. -/
theorem read_of_not_reclaims {d : Device} {offset : Word} {length : Nat}
    (h : d.reclaims (decode offset length) = false) :
    ∃ latch, (d.read offset length).2 = { d with completeHeadLatch := latch } := by
  have hsame : ∃ latch, d = { d with completeHeadLatch := latch } := ⟨d.completeHeadLatch, rfl⟩
  unfold read
  split
  · exact hsame
  · exact hsame
  · rename_i register part hdec
    cases register
    case completeHead =>
      cases hlatch : d.completeHeadLatch with
      | none =>
        cases part
        · simp [reclaims, hdec, hlatch] at h
        · simp [reclaims, hdec, hlatch] at h
        · exact ⟨none, by simp only [readPart, readCompleteHead, hlatch]; exact hlatch ▸ rfl⟩
      | some latched =>
        cases part
        · exact ⟨none, by simp only [readPart, readCompleteHead, hlatch]⟩
        · exact ⟨some latched, by simp only [readPart, readCompleteHead, hlatch]; exact hlatch ▸ rfl⟩
        · exact ⟨none, by simp only [readPart, readCompleteHead, hlatch]⟩
    all_goals exact hsame
  · exact hsame

/-- A write that submits a word leaves what submitting it leaves, but for the staged half. -/
theorem write_of_submission {d : Device} {offset : Word} {bytes : List UInt8} {w : Word}
    (h : d.submission? offset bytes = some w) :
    ∃ staged, (d.write offset bytes).2 = { d with stagedReadyTail := staged }.enqueue w := by
  unfold submission? at h
  split at h
  · rename_i hdec
    cases h
    exact ⟨d.stagedReadyTail, by simp only [write, hdec, writePart, writeReadyTail]⟩
  · rename_i hdec
    cases h
    exact ⟨none, by simp only [write, hdec, writePart, writeReadyTail]⟩
  · cases h

/-- A write of the whole of `readyTail` submits the word written. -/
theorem submission?_full (d : Device) {bytes : List UInt8} (hl : bytes.length = 8) :
    d.submission? Register.readyTail.address bytes = some (Word.ofBytes bytes) := by
  have hdec : decode Register.readyTail.address 8 = .register .readyTail .full := by decide
  rw [submission?, hl, hdec]

/-- A write of the high half of `readyTail` submits the word of both halves. -/
theorem submission?_high (d : Device) {bytes : List UInt8} (hl : bytes.length = 4) :
    d.submission? (Register.readyTail.address + 4) bytes =
      some (Word.join (Word.ofBytes bytes).low (d.stagedReadyTail.getD 0)) := by
  have hdec : decode (Register.readyTail.address + 4) 4 = .register .readyTail .high := by decide
  rw [submission?, hl, hdec]

/-- A write that rings the doorbell does nothing else. -/
theorem write_of_rings {d : Device} {offset : Word} {bytes : List UInt8}
    (h : rings (decode offset bytes.length) = true) : (d.write offset bytes).2 = d.ringDoorbell := by
  unfold rings at h
  split at h
  · rename_i hdec
    simp only [write, hdec, writePart]
  · cases h

/-- Any other write changes nothing but the settings and the staged halves. -/
theorem write_of_setting {d : Device} {offset : Word} {bytes : List UInt8} (hs : d.submission? offset bytes = none)
    (hr : rings (decode offset bytes.length) = false) :
    ∃ batchFactor snapshot stagedReadyTail stagedSnapshotAddress, (d.write offset bytes).2 =
      { d with batchFactor, snapshot, stagedReadyTail, stagedSnapshotAddress } := by
  have hsame : ∃ batchFactor snapshot stagedReadyTail stagedSnapshotAddress,
      d = { d with batchFactor, snapshot, stagedReadyTail, stagedSnapshotAddress } :=
    ⟨d.batchFactor, d.snapshot, d.stagedReadyTail, d.stagedSnapshotAddress, rfl⟩
  unfold write
  split
  · exact hsame
  · exact hsame
  · exact hsame
  · rename_i register part hdec
    cases register
    case readyTail =>
      cases part
      · simp [submission?, hdec] at hs
      · exact ⟨d.batchFactor, d.snapshot, _, d.stagedSnapshotAddress, rfl⟩
      · simp [submission?, hdec] at hs
    case doorbell => simp [rings, hdec] at hr
    case batchFactor => exact ⟨_, d.snapshot, d.stagedReadyTail, d.stagedSnapshotAddress, rfl⟩
    case snapshotSize => exact ⟨d.batchFactor, _, d.stagedReadyTail, d.stagedSnapshotAddress, rfl⟩
    case snapshotAddress =>
      cases part
      · exact ⟨d.batchFactor, _, d.stagedReadyTail, d.stagedSnapshotAddress, rfl⟩
      · exact ⟨d.batchFactor, d.snapshot, d.stagedReadyTail, _, rfl⟩
      · exact ⟨d.batchFactor, _, d.stagedReadyTail, none, rfl⟩
    all_goals exact hsame

/-! ## Posting a cleaned virtine -/

/-- Finishing a virtine posts it, counts it, and otherwise touches only what notifications are about. -/
theorem finish_eq (d : Device) (a : Address) :
    ∃ cleanedCount notifications line, d.finish a =
      { d with
        complete := d.completeWith a
        cleanedCount
        stats := { d.stats with cleaned := d.stats.cleaned + 1, notifications }
        line } := by
  unfold finish notifyIfComplete
  split
  · exact ⟨_, _, _, rfl⟩
  · exact ⟨d.cleanedCount + 1, d.stats.notifications, d.line, rfl⟩

/-! ## What restoring does not look at -/

/-- A change of a device that restoring a virtine does not look at and leaves as it is. -/
structure Aside (f : Device → Device) : Prop where
  snapshot : ∀ d, (f d).snapshot = d.snapshot
  batchFactor : ∀ d, (f d).batchFactor = d.batchFactor
  cleanedCount : ∀ d, (f d).cleanedCount = d.cleanedCount
  notifications : ∀ d, (f d).stats.notifications = d.stats.notifications
  line : ∀ d, (f d).line = d.line
  post : ∀ d a, (f d).post a = f (d.post a)
  notify : ∀ d, (f d).notify = f d.notify
  fail : ∀ d, (f d).fail = f d.fail

/-- Finishing a virtine does not look at what lies aside. -/
theorem Aside.finish {f : Device → Device} (hf : Aside f) (d : Device) (a : Address) :
    (f d).finish a = f (d.finish a) := by
  have hsize : (f (d.post a)).batchSize = (d.post a).batchSize := by rw [batchSize, hf.batchFactor, batchSize]
  unfold Device.finish notifyIfComplete
  rw [hf.post, hsize, hf.cleanedCount, hf.notify, apply_ite f]

end Device

namespace Machine

variable {μ : Type} [VirtineMemory μ]

/-- Nor does restoring one. -/
theorem restore_mapDevice {f : Device → Device} (hf : Device.Aside f) (m : Machine μ) (a : Address) :
    (m.mapDevice f).restore a = ((m.restore a).1, (m.restore a).2.mapDevice f) := by
  simp only [restore, mapDevice, hf.snapshot]
  split <;> simp only [hf.finish, hf.fail]

/-! ## Cleaning -/

/-- The outcomes of a step of cleaning, each with the guards that lead to it and the machine that it leaves. -/
inductive CleanCase (m : Machine μ) : CleanStep × Machine μ → Prop where
  | stopped (hs : m.device.isStopping = true) : CleanCase m (.stopped, m)
  | drained (hs : m.device.isStopping = false)
      (hr : m.device.ready.isEmpty = true ∨ m.device.ready.pop = none) : CleanCase m (.drained, m)
  | stalled (hs : m.device.isStopping = false) (hf : m.device.complete.isFull = true)
      (hr : m.device.ready.isEmpty = false) : CleanCase m (.stalled, m.mapDevice Device.stall)
  | cleaned {a : Address} {ready : VirtineQueue} (memory : μ) (hs : m.device.isStopping = false)
      (hf : m.device.complete.isFull = false) (hp : m.device.ready.pop = some (a, ready)) :
      CleanCase m (.cleaned a, ⟨(m.device.withReady ready).finish a, memory⟩)
  | copyFailed {a : Address} {ready : VirtineQueue} (memory : μ) (hs : m.device.isStopping = false)
      (hf : m.device.complete.isFull = false) (hp : m.device.ready.pop = some (a, ready)) :
      CleanCase m (.copyFailed a, ⟨(m.device.withReady ready).fail, memory⟩)

theorem cleanNext_case (m : Machine μ) : CleanCase m m.cleanNext := by
  unfold cleanNext
  by_cases hs : m.device.isStopping = true
  · rw [if_pos hs]
    exact .stopped hs
  rw [if_neg hs]
  have hs := Bool.eq_false_iff.2 hs
  by_cases hf : m.device.complete.isFull = true
  · rw [if_pos hf]
    by_cases he : m.device.ready.isEmpty = true
    · rw [if_pos he]
      exact .drained hs (Or.inl he)
    · rw [if_neg he]
      exact .stalled hs hf (Bool.eq_false_iff.2 he)
  rw [if_neg hf]
  have hf := Bool.eq_false_iff.2 hf
  cases hp : m.device.ready.pop with
  | none => exact .drained hs (Or.inr hp)
  | some next =>
    obtain ⟨a, ready⟩ := next
    simp only [restore]
    split
    · exact .cleaned _ hs hf hp
    · exact .copyFailed _ hs hf hp

/-- No step of cleaning does anything once a stop was requested. -/
theorem cleanNext_of_stopping {m : Machine μ} (hs : m.device.isStopping = true) : m.cleanNext = (.stopped, m) := by
  rw [cleanNext, if_pos hs]

/-- A step of cleaning touches only the queues, the counters, the line and the stall; it leaves the tail of the Ready Queue and the
count of the refused alone. -/
theorem cleanNext_frame (m : Machine μ) :
    ∃ ready complete cleanedCount stats line isStalled,
      m.cleanNext.2.device = { m.device with ready, complete, cleanedCount, stats, line, isStalled } ∧
        ready.tail = m.device.ready.tail ∧ stats.rejectedFull = m.device.stats.rejectedFull := by
  have hsame : ∃ ready complete cleanedCount stats line isStalled,
      m.device = { m.device with ready, complete, cleanedCount, stats, line, isStalled } ∧
        ready.tail = m.device.ready.tail ∧ stats.rejectedFull = m.device.stats.rejectedFull :=
    ⟨_, _, _, _, _, _, rfl, rfl, rfl⟩
  have hcase := m.cleanNext_case
  generalize m.cleanNext = next at hcase
  cases hcase with
  | stopped => exact hsame
  | drained => exact hsame
  | stalled =>
    simp only [mapDevice, Device.stall]
    split
    · exact hsame
    · exact ⟨_, _, _, _, _, _, rfl, rfl, rfl⟩
  | @cleaned a ready _ _ _ hp =>
    obtain ⟨cleanedCount, notifications, line, heq⟩ := (m.device.withReady ready).finish_eq a
    rw [heq]
    exact ⟨ready, _, _, _, _, _, rfl, Ring.tail_of_pop hp, rfl⟩
  | @copyFailed a ready _ _ _ hp => exact ⟨ready, _, _, _, _, _, rfl, Ring.tail_of_pop hp, rfl⟩

/-! ## The worker -/

/-- The steps of the worker: it sees a stop, opens a pass, goes on with one, ends one, gives up the notifier, or rests. -/
inductive WorkerCase (m : Machine μ) : Machine μ → Prop where
  | stop (hp : m.device.phase = .waitingForDoorbell) (hs : m.device.isStopping = true) :
      WorkerCase m (m.mapDevice ({ · with phase := .stopping }))
  | start (hp : m.device.phase = .waitingForDoorbell) (hs : m.device.isStopping = false)
      (hd : m.device.doorbell = true) : WorkerCase m (m.mapDevice ({ ·.beginPass with phase := .processing }))
  | go (hp : m.device.phase = .processing) (hc : m.cleanNext.1.continues = true) : WorkerCase m m.cleanNext.2
  | halt (hp : m.device.phase = .processing) (hc : m.cleanNext.1.continues = false) :
      WorkerCase m (m.cleanNext.2.mapDevice ({ ·.endPass with phase := phaseAfter m.cleanNext.1 }))
  | close (hp : m.device.phase = .stopping) :
      WorkerCase m (m.mapDevice ({ ·.closeNotifications with phase := .terminated }))
  | rest (hw : m.device.hasWork = false) : WorkerCase m m

theorem workerStep_case (m : Machine μ) : WorkerCase m m.workerStep := by
  unfold workerStep
  cases hp : m.device.phase with
  | waitingForDoorbell =>
    by_cases hs : m.device.isStopping = true
    · simp only [if_pos hs]
      exact .stop hp hs
    · by_cases hd : m.device.doorbell = true
      · simp only [if_neg hs, if_pos hd]
        exact .start hp (Bool.eq_false_iff.2 hs) hd
      · simp only [if_neg hs, if_neg hd]
        exact .rest (by simp [Device.hasWork, hp, hs, hd])
  | processing =>
    by_cases hc : m.cleanNext.1.continues = true
    · simp only [if_pos hc]
      exact .go hp hc
    · simp only [if_neg hc]
      exact .halt hp (Bool.eq_false_iff.2 hc)
  | stopping => exact .close hp
  | terminated => exact .rest (by simp [Device.hasWork, hp])

/-- A step of the worker leaves what the host has set and the halves of its accesses alone, and no more than a step of cleaning does
it touch the tail of the Ready Queue and the count of the refused. -/
theorem workerStep_frame (m : Machine μ) :
    ∃ ready complete doorbell isProcessing cleanedCount isStalled phase stats line,
      m.workerStep.device =
          { m.device with ready, complete, doorbell, isProcessing, cleanedCount, isStalled, phase, stats, line } ∧
        ready.tail = m.device.ready.tail ∧ stats.rejectedFull = m.device.stats.rejectedFull := by
  have hframe := m.cleanNext_frame
  have hcase := m.workerStep_case
  generalize m.workerStep = next at hcase
  cases hcase with
  | stop => exact ⟨_, _, _, _, _, _, _, _, _, rfl, rfl, rfl⟩
  | start => exact ⟨_, _, _, _, _, _, _, _, _, rfl, rfl, rfl⟩
  | go =>
    obtain ⟨_, _, _, _, _, _, heq, htail, hrejected⟩ := hframe
    rw [heq]
    exact ⟨_, _, _, _, _, _, _, _, _, rfl, htail, hrejected⟩
  | halt =>
    obtain ⟨_, _, _, _, _, _, heq, htail, hrejected⟩ := hframe
    simp only [mapDevice, heq]
    exact ⟨_, _, _, _, _, _, _, _, _, rfl, htail, hrejected⟩
  | close =>
    refine ⟨_, _, _, _, _, _, _, _, _, rfl, rfl, ?_⟩
    change m.device.counters.rejectedFull = _
    unfold Device.counters
    split <;> rfl
  | rest => exact ⟨_, _, _, _, _, _, _, _, _, rfl, rfl, rfl⟩

end Machine

end VirtineCleaning

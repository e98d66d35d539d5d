import VirtineCleaning.Memory.Dense
import VirtineCleaning.Proofs.Device.Wakeup

/-!
# Coherence of the flags of a device

Six operations on both sides of the lock write the flags of a device, and the worker keeps its phase beside them. Between any two of
them, that is whenever the lock is free, they tell one story (`coherent_of_run`): a pass is running exactly in the processing phase,
and then the doorbell has been taken and no stall is left; a stall stands only while the Complete Queue is full and something waits;
the worker ends only after a stop was requested, and the notifier goes with it. The counter of stalls counts the moments at which
the stall flag rises.
-/

namespace VirtineCleaning

open History

/-- The flags of a device, its phase, its queues and its notifier agree. -/
structure Device.Coherent (d : Device) : Prop extends d.PhaseAgrees where
  doorbell_of_processing : d.isProcessing = true → d.doorbell = false
  isStalled_of_processing : d.isProcessing = true → d.isStalled = false
  complete_isFull_of_stalled : d.isStalled = true → d.complete.isFull = true
  ready_isEmpty_of_stalled : d.isStalled = true → d.ready.isEmpty = false
  notifier_eq_none_iff : d.line.notifier = none ↔ d.phase = .terminated

namespace Device

/-- From one device to another the stall flag rises exactly when one more stall is counted. -/
def CountsStall (d e : Device) : Prop :=
  e.stats.stalls = d.stats.stalls + if d.isStalled = false ∧ e.isStalled = true then 1 else 0

/-- Where the flag does not rise, no stall is to be counted. -/
theorem CountsStall.of_le {d e : Device} (hstalls : e.stats.stalls = d.stats.stalls)
    (hle : e.isStalled = true → d.isStalled = true) : d.CountsStall e := by
  have hsame : ¬(d.isStalled = false ∧ e.isStalled = true) := by
    rintro ⟨hlow, hhigh⟩
    rw [hle hhigh] at hlow
    cases hlow
  rw [CountsStall, if_neg hsame, hstalls, Nat.add_zero]

/-- A stall is noted once. -/
theorem countsStall_stall (d : Device) : d.CountsStall d.stall := by
  unfold stall
  split
  · exact CountsStall.of_le rfl id
  · rename_i hlow
    rw [CountsStall, if_pos ⟨Bool.eq_false_iff.2 hlow, rfl⟩]

/-- A reclaim begins no stall. -/
theorem countsStall_dequeue (d : Device) : d.CountsStall d.dequeue.2 := by
  have hcase := d.dequeue_case
  generalize d.dequeue = next, d.dequeueEvents = events at hcase
  cases hcase with
  | empty => exact CountsStall.of_le rfl id
  | taken => exact CountsStall.of_le rfl nofun

theorem countsStall_read (d : Device) (offset : Word) (length : Nat) : d.CountsStall (d.read offset length).2 := by
  have hcase := d.read_case offset length
  generalize (d.read offset length).2 = next, d.readEvents offset length = events at hcase
  cases hcase with
  | reclaims => exact d.countsStall_dequeue
  | looks => exact CountsStall.of_le rfl id

/-- A ring begins no stall. -/
theorem countsStall_ringDoorbell (d : Device) : d.CountsStall d.ringDoorbell := by
  unfold ringDoorbell
  split <;> exact CountsStall.of_le rfl id

theorem countsStall_enqueue (d : Device) (w : Word) : d.CountsStall (d.enqueue w) := by
  have hcase := d.enqueue_case w
  generalize d.enqueue w = next, d.submitEvents w = events at hcase
  cases hcase <;> exact CountsStall.of_le rfl id

theorem countsStall_write (d : Device) (offset : Word) (bytes : List UInt8) :
    d.CountsStall (d.write offset bytes).2 := by
  have hcase := d.write_case offset bytes
  generalize d.submission? offset bytes = submission, (d.write offset bytes).2 = next,
    d.writeEvents offset bytes = events at hcase
  cases hcase with
  | submits w staged => exact countsStall_enqueue { d with stagedReadyTail := staged } w
  | rings => exact d.countsStall_ringDoorbell
  | sets => exact CountsStall.of_le rfl id

namespace Coherent

variable {d : Device} {h : History}

/-- While no stall stands, nothing is promised of the queues. -/
theorem of_not_stalled (hphase : d.PhaseAgrees) (hlow : d.isStalled = false)
    (hdoorbell : d.isProcessing = true → d.doorbell = false)
    (hnotifier : d.line.notifier = none ↔ d.phase = .terminated) : d.Coherent where
  toPhaseAgrees := hphase
  doorbell_of_processing := hdoorbell
  isStalled_of_processing _ := hlow
  complete_isFull_of_stalled := by simp [hlow]
  ready_isEmpty_of_stalled := by simp [hlow]
  notifier_eq_none_iff := hnotifier

/-- A new device, whose line is open, is coherent. -/
theorem fresh (batchFactor : Word) {line : Line} (hline : line.notifier.isSome = true) :
    Coherent { batchFactor, line } := by
  refine of_not_stalled (PhaseAgrees.fresh batchFactor line) rfl (fun _ => rfl) ?_
  rw [Option.isSome_iff_ne_none] at hline
  exact ⟨fun hn => absurd hn hline, nofun⟩

/-- A ring is absorbed by a running pass, so it never leaves the doorbell set in one. -/
theorem ringDoorbell (hc : d.Coherent) : d.ringDoorbell.Coherent := by
  unfold Device.ringDoorbell
  split
  · exact hc
  · rename_i hp
    exact { hc with doorbell_of_processing := fun hp' => absurd hp' hp }

/-- Taking an address off the Complete Queue ends a stall, and rings only where there was one, so in no pass. -/
theorem dequeue (hc : d.Coherent) : d.dequeue.2.Coherent := by
  have hcase := d.dequeue_case
  generalize d.dequeue = next, d.dequeueEvents = events at hcase
  cases hcase with
  | empty => exact hc
  | taken =>
    refine of_not_stalled { hc with } rfl (fun hp => ?_) hc.notifier_eq_none_iff
    rw [hc.doorbell_of_processing hp, hc.isStalled_of_processing hp]
    rfl

/-- A submission only adds to the Ready Queue. -/
theorem enqueue (hb : d.Balanced h) (hc : d.Coherent) (w : Word) : (d.enqueue w).Coherent := by
  have hcase := d.enqueue_case w
  generalize d.enqueue w = next, d.submitEvents w = events at hcase
  cases hcase with
  | zero => exact { hc with }
  | full => exact { hc with }
  | accepted _ hi =>
    obtain ⟨-, hholds, -⟩ := hb.ready_holds.of_insert hi
    exact { hc with ready_isEmpty_of_stalled := fun _ => by rw [hholds.isEmpty_eq]; simp }

/-- Reads keep a device coherent, a reclaim among them. -/
theorem read (hc : d.Coherent) (offset : Word) (length : Nat) : (d.read offset length).2.Coherent := by
  have hcase := d.read_case offset length
  generalize (d.read offset length).2 = next, d.readEvents offset length = events at hcase
  cases hcase with
  | reclaims => exact { hc.dequeue with }
  | looks => exact { hc with }

/-- So do writes, a submission among them. -/
theorem write (hb : d.Balanced h) (hc : d.Coherent) (offset : Word) (bytes : List UInt8) :
    (d.write offset bytes).2.Coherent := by
  have hcase := d.write_case offset bytes
  generalize d.submission? offset bytes = submission, (d.write offset bytes).2 = next,
    d.writeEvents offset bytes = events at hcase
  cases hcase with
  | submits w staged => exact enqueue (d := { d with stagedReadyTail := staged }) (h := h) { hb with } { hc with } w
  | rings => exact hc.ringDoorbell
  | sets => exact { hc with }

end Coherent

/-! ## The notifier in a pass -/

/-- Raising a notification neither gives up the notifier nor brings it back. -/
theorem notifier_notify (d : Device) : d.notify.line.notifier = none ↔ d.line.notifier = none := by
  unfold notify Line.raise?
  cases hn : d.line.notifier with
  | none => simpa using hn
  | some notifier =>
    simp only [Option.map_some]
    split
    · simp
    · split <;> simp

/-- Finishing a virtine neither opens nor closes the line. -/
theorem notifier_finish (d : Device) (a : Address) : (d.finish a).line.notifier = none ↔ d.line.notifier = none := by
  unfold finish notifyIfComplete
  split
  · exact (d.post a).notifier_notify
  · exact Iff.rfl

end Device

namespace Machine

variable {μ : Type} [VirtineMemory μ] {m : Machine μ} {h : History}

open Device

/-- Nor does a step of cleaning. -/
theorem notifier_cleanNext (m : Machine μ) :
    m.cleanNext.2.device.line.notifier = none ↔ m.device.line.notifier = none := by
  have hcase := m.cleanNext_case
  generalize m.cleanNext = next at hcase
  cases hcase with
  | stopped => exact Iff.rfl
  | drained => exact Iff.rfl
  | stalled =>
    simp only [mapDevice, stall]
    split <;> exact Iff.rfl
  | @cleaned a ready => exact (m.device.withReady ready).notifier_finish a
  | copyFailed => exact Iff.rfl

/-! ## Steps of the worker -/

/-- A step that cleans or drops a virtine raises no stall; one that ends the pass may. -/
theorem countsStall_cleanNext (m : Machine μ) : m.device.CountsStall m.cleanNext.2.device := by
  have hcase := m.cleanNext_case
  generalize m.cleanNext = next at hcase
  cases hcase with
  | stopped => exact CountsStall.of_le rfl id
  | drained => exact CountsStall.of_le rfl id
  | stalled => exact m.device.countsStall_stall
  | @cleaned a ready =>
    obtain ⟨_, _, _, heq⟩ := (m.device.withReady ready).finish_eq a
    rw [heq]
    exact CountsStall.of_le rfl id
  | copyFailed => exact CountsStall.of_le rfl id

/-- A step of the worker counts the stall that it begins, if it begins one. -/
theorem countsStall_workerStep (m : Machine μ) : m.device.CountsStall m.workerStep.device := by
  have hclean := m.countsStall_cleanNext
  have hcase := m.workerStep_case
  generalize m.workerStep = next at hcase
  cases hcase with
  | stop => exact CountsStall.of_le rfl id
  | start => exact CountsStall.of_le rfl nofun
  | go => exact hclean
  | halt => exact hclean
  | close =>
    refine CountsStall.of_le ?_ id
    simp only [mapDevice, closeNotifications, counters]
    split <;> rfl
  | rest => exact CountsStall.of_le rfl id

/-- A live action counts a stall exactly when the stall flag rises. -/
theorem countsStall_apply (m : Machine μ) {a : Action} (hl : a.isLive = true) :
    m.device.CountsStall (m.apply a).device := by
  cases a with
  | read offset length => exact m.device.countsStall_read offset length
  | write offset bytes => exact m.device.countsStall_write offset bytes
  | signal => exact m.device.countsStall_ringDoorbell
  | requestStop => exact CountsStall.of_le rfl id
  | work => exact m.countsStall_workerStep
  | _ => cases hl

/-- A step after which the pass goes on leaves the stall flag as it is. -/
theorem isStalled_of_continues (m : Machine μ) (hgo : m.cleanNext.1.continues = true) :
    m.cleanNext.2.device.isStalled = m.device.isStalled := by
  have hcase := m.cleanNext_case
  generalize m.cleanNext = next at hcase hgo
  cases hcase with
  | stopped => cases hgo
  | drained => cases hgo
  | stalled => cases hgo
  | @cleaned a ready =>
    obtain ⟨_, _, _, heq⟩ := (m.device.withReady ready).finish_eq a
    rw [heq]
    rfl
  | copyFailed => rfl

/-- A step that ends the pass leaves a stall behind only where the Complete Queue is full and something waits. -/
theorem stalled_of_halts (m : Machine μ) (hlow : m.device.isStalled = false) (hhalt : m.cleanNext.1.continues = false)
    (hhigh : m.cleanNext.2.device.isStalled = true) :
    m.cleanNext.2.device.complete.isFull = true ∧ m.cleanNext.2.device.ready.isEmpty = false := by
  have hcase := m.cleanNext_case
  generalize m.cleanNext = next at hcase hhalt hhigh
  cases hcase with
  | stopped => rw [hlow] at hhigh; cases hhigh
  | drained => rw [hlow] at hhigh; cases hhigh
  | stalled _ hf hr =>
    simp only [mapDevice, stall, hlow, Bool.false_eq_true, if_false]
    exact ⟨hf, hr⟩
  | cleaned => cases hhalt
  | copyFailed => cases hhalt

/-- A step of the worker keeps the flags together: it opens a pass with every flag cleared, and leaves a stall behind only as it
closes one. -/
theorem coherent_workerStep (hc : m.device.Coherent) : m.workerStep.device.Coherent := by
  have hphase := phaseAgrees_workerStep hc.toPhaseAgrees
  have hnotifier := m.notifier_cleanNext
  obtain ⟨hdoorbell, hsame, -⟩ := m.frame_cleanNext
  have hcase := m.workerStep_case
  generalize m.workerStep = next at hcase hphase
  cases hcase with
  | stop hp =>
    exact { hphase, hc with notifier_eq_none_iff := by simp [mapDevice, hc.notifier_eq_none_iff, hp] }
  | start hp =>
    refine .of_not_stalled hphase rfl (fun _ => rfl) ?_
    simp [mapDevice, beginPass, hc.notifier_eq_none_iff, hp]
  | go hp hgo =>
    have hbusy := hc.processing_iff.2 hp
    have hlow := (m.isStalled_of_continues hgo).trans (hc.isStalled_of_processing hbusy)
    refine .of_not_stalled hphase hlow (fun _ => hdoorbell.trans (hc.doorbell_of_processing hbusy)) ?_
    rw [hnotifier, hsame, hc.notifier_eq_none_iff]
  | halt hp hhalt =>
    have hlow := hc.isStalled_of_processing (hc.processing_iff.2 hp)
    exact { hphase with
      doorbell_of_processing := fun hbusy => absurd hbusy Bool.false_ne_true
      isStalled_of_processing := fun hbusy => absurd hbusy Bool.false_ne_true
      complete_isFull_of_stalled := fun hhigh => (m.stalled_of_halts hlow hhalt hhigh).1
      ready_isEmpty_of_stalled := fun hhigh => (m.stalled_of_halts hlow hhalt hhigh).2
      notifier_eq_none_iff := by
        have hended : phaseAfter m.cleanNext.1 ≠ .terminated := by
          cases m.cleanNext.1 <;> simp [phaseAfter]
        simp [mapDevice, endPass, hnotifier, hc.notifier_eq_none_iff, hp, hended] }
  | close hp =>
    have hidle : ¬m.device.isProcessing = true := by simp [hc.processing_iff, hp]
    exact { hphase with
      doorbell_of_processing := fun hbusy => absurd hbusy hidle
      isStalled_of_processing := fun hbusy => absurd hbusy hidle
      complete_isFull_of_stalled := hc.complete_isFull_of_stalled
      ready_isEmpty_of_stalled := hc.ready_isEmpty_of_stalled
      notifier_eq_none_iff := by simp [mapDevice, closeNotifications, Line.closeNotifier] }
  | rest => exact hc

/-- Every live action keeps the flags together. -/
theorem coherent_apply {a : Action} (hl : a.isLive = true) (hb : m.device.Balanced h) (hc : m.device.Coherent) :
    (m.apply a).device.Coherent := by
  cases a with
  | read offset length => exact hc.read offset length
  | write offset bytes => exact hc.write hb offset bytes
  | signal => exact hc.ringDoorbell
  | requestStop => exact { hc with stopping_of_ended := fun _ => rfl }
  | work => exact coherent_workerStep hc
  | _ => cases hl

/-! ## Runs -/

/-- The number of times that the stall flag rises in a run. -/
def stallsRaised (m : Machine μ) : List Action → Nat
  | [] => 0
  | a :: rest =>
    (if m.device.isStalled = false ∧ (m.apply a).device.isStalled = true then 1 else 0) + (m.apply a).stallsRaised rest

/-- A run of live actions counts as many stalls as the stall flag rises. -/
theorem stalls_run (m : Machine μ) (actions : List Action) (hlive : ∀ a ∈ actions, a.isLive = true) :
    (m.run actions).device.stats.stalls = m.device.stats.stalls + m.stallsRaised actions := by
  induction actions generalizing m with
  | nil => rfl
  | cons a rest ih =>
    have hstep := m.countsStall_apply (hlive a List.mem_cons_self)
    have hrest := ih (m.apply a) fun b hb => hlive b (List.mem_cons_of_mem a hb)
    rw [CountsStall] at hstep
    simp only [run, List.foldl_cons, stallsRaised] at hrest ⊢
    omega

/-- A run of live actions keeps a machine balanced and coherent. -/
theorem balanced_coherent_run {actions : List Action} (hlive : ∀ a ∈ actions, a.isLive = true)
    (hb : m.device.Balanced h) (hc : m.device.Coherent) :
    (m.run actions).device.Balanced (h ++ m.history actions) ∧ (m.run actions).device.Coherent :=
  run_of_steps (P := fun m h => m.device.Balanced h ∧ m.device.Coherent)
    (fun a hmem _ _ ⟨hb, hc⟩ => ⟨balanced_apply a hb, coherent_apply (hlive a hmem) hb hc⟩) ⟨hb, hc⟩

/-- After any run of a device whose worker runs, the flags, the phase, the queues and the notifier agree, and the counter of stalls
counts the times that the stall flag rose. -/
theorem coherent_of_run (memory : μ) (batchFactor : Word) (line : Line) (hline : line.notifier.isSome = true)
    (actions : List Action) (hlive : ∀ a ∈ actions, a.isLive = true) :
    ((fresh memory batchFactor line).run actions).device.Coherent ∧
      ((fresh memory batchFactor line).run actions).device.stats.stalls =
        (fresh memory batchFactor line).stallsRaised actions := by
  have hb : (fresh memory batchFactor line).device.Balanced [] := Device.Balanced.fresh batchFactor line
  refine ⟨(balanced_coherent_run hlive hb (Coherent.fresh batchFactor hline)).2, ?_⟩
  rw [stalls_run _ actions hlive]
  exact Nat.zero_add _

/-- The actions that stall a device: one virtine more is submitted than the Complete Queue holds. -/
def stallingActions : List Action :=
  let submit : Action := .write Register.readyTail.address [0, 16, 0, 0, 0, 0, 0, 0]
  List.replicate 100 submit ++ [.signal] ++ List.replicate 102 .work ++ [submit, .signal, .work, .work]

/-- One virtine more than the Complete Queue holds stalls the device once. -/
theorem coherent_of_run_stalled :
    (∀ a ∈ stallingActions, a.isLive = true) ∧ ∃ m : Machine DenseMemory,
      m = (fresh (DenseMemory.zeros 0) 1 (.ofCapacity 1)).run stallingActions ∧ m.device.isStalled = true ∧
        m.device.complete.isFull = true ∧ m.device.ready.isEmpty = false ∧ m.device.stats.stalls = 1 := by
  have hlive : ∀ a ∈ stallingActions, a.isLive = true := by decide +kernel
  have hstalled : ((fresh (DenseMemory.zeros 0) 1 (.ofCapacity 1)).run stallingActions).device.isStalled = true := by
    decide +kernel
  have hraised : (fresh (DenseMemory.zeros 0) 1 (.ofCapacity 1)).stallsRaised stallingActions = 1 := by decide +kernel
  obtain ⟨hc, hstalls⟩ := coherent_of_run (DenseMemory.zeros 0) 1 (.ofCapacity 1) rfl stallingActions hlive
  exact ⟨hlive, _, rfl, hstalled, hc.complete_isFull_of_stalled hstalled, hc.ready_isEmpty_of_stalled hstalled,
    hstalls.trans hraised⟩

end Machine

end VirtineCleaning

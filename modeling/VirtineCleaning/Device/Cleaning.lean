import VirtineCleaning.Device.Basic
import VirtineCleaning.Memory.Basic

/-!
# Cleaning

A machine is a device together with the memory it cleans. One step cleans the virtine at the head of the Ready Queue;
a pass repeats steps until the queue is drained, the Complete Queue is full or a stop was requested. Every step that
lets the pass go on takes an address off the Ready Queue, so a pass ends.
-/

namespace VirtineCleaning

/-- A device and the memory it cleans. -/
structure Machine (μ : Type) where
  device : Device
  memory : μ

/-- The outcome of a step. -/
inductive CleanStep where
  | cleaned (address : Address)
  /-- The snapshot could not be copied, and the virtine was dropped. -/
  | copyFailed (address : Address)
  /-- The Ready Queue is empty. -/
  | drained
  /-- The Complete Queue is full, and the Ready Queue stays as it is. -/
  | stalled
  /-- A stop was requested. -/
  | stopped
deriving DecidableEq

/-- The pass goes on after this step. -/
def CleanStep.continues : CleanStep → Bool
  | .cleaned _ | .copyFailed _ => true
  | _ => false

/-- What a pass did. -/
structure Report where
  cleaned : Nat := 0
  notifications : Nat := 0
  copyFailures : Nat := 0
  stalled : Bool := false
deriving DecidableEq, Repr

/-- The report with one more step. -/
def Report.record (r : Report) : CleanStep → Report
  | .cleaned _ => { r with cleaned := r.cleaned + 1 }
  | .copyFailed _ => { r with copyFailures := r.copyFailures + 1 }
  | .stalled => { r with stalled := true }
  | .drained | .stopped => r

namespace Machine

variable {μ : Type}

/-- Applies an operation of the device that touches no memory. -/
@[inline] def mapDevice (m : Machine μ) (f : Device → Device) : Machine μ := { m with device := f m.device }

variable [VirtineMemory μ]

/-- Restores the virtine at `a`, which has left the Ready Queue. -/
def restore (m : Machine μ) (a : Address) : CleanStep × Machine μ :=
  match VirtineMemory.copy m.memory m.device.snapshot.address a.word m.device.snapshot.size with
  | (.ok (), memory) => (.cleaned a, ⟨m.device.finish a, memory⟩)
  | (.error _, memory) => (.copyFailed a, ⟨m.device.fail, memory⟩)

/-- Cleans the virtine at the head of the Ready Queue, if there is one and the Complete Queue has room for it. -/
def cleanNext (m : Machine μ) : CleanStep × Machine μ :=
  if m.device.isStopping then (.stopped, m)
  else if m.device.complete.isFull then
    if m.device.ready.isEmpty then (.drained, m)
    else (.stalled, m.mapDevice Device.stall)
  else
    match m.device.ready.pop with
    | none => (.drained, m)
    | some (a, ready) => restore ⟨m.device.withReady ready, m.memory⟩ a

/-- What a step of cleaning leaves to others: the doorbell, the phase and the stop request. -/
theorem frame_finish (d : Device) (a : Address) :
    (d.finish a).ready = d.ready ∧ (d.finish a).doorbell = d.doorbell ∧ (d.finish a).phase = d.phase ∧
      (d.finish a).isStopping = d.isStopping := by
  unfold Device.finish Device.notifyIfComplete
  split <;> exact ⟨rfl, rfl, rfl, rfl⟩

/-- Restoring a virtine also leaves the Ready Queue as it is. -/
theorem frame_restore (m : Machine μ) (a : Address) :
    (m.restore a).2.device.ready = m.device.ready ∧ (m.restore a).2.device.doorbell = m.device.doorbell ∧
      (m.restore a).2.device.phase = m.device.phase ∧
      (m.restore a).2.device.isStopping = m.device.isStopping := by
  unfold restore
  split
  · exact frame_finish m.device a
  · exact ⟨rfl, rfl, rfl, rfl⟩

/-- A step neither rings the doorbell nor moves the phase nor requests a stop. -/
theorem frame_cleanNext (m : Machine μ) :
    m.cleanNext.2.device.doorbell = m.device.doorbell ∧ m.cleanNext.2.device.phase = m.device.phase ∧
      m.cleanNext.2.device.isStopping = m.device.isStopping := by
  unfold cleanNext
  split
  · exact ⟨rfl, rfl, rfl⟩
  split
  · split
    · exact ⟨rfl, rfl, rfl⟩
    · simp only [mapDevice, Device.stall]
      split <;> exact ⟨rfl, rfl, rfl⟩
  split
  · exact ⟨rfl, rfl, rfl⟩
  · exact (frame_restore _ _).2

/-- A step after which the pass goes on takes one address off the Ready Queue. -/
theorem occupied_of_continues (m : Machine μ) (h : m.cleanNext.1.continues) :
    m.cleanNext.2.device.ready.occupied + 1 = m.device.ready.occupied := by
  unfold cleanNext at h ⊢
  split at h
  · simp [CleanStep.continues] at h
  split at h
  · split at h <;> simp [CleanStep.continues] at h
  split at h
  · simp [CleanStep.continues] at h
  · rename_i hs hf _ a ready hpop
    simp only [hs, hf, Bool.false_eq_true, if_false]
    rw [(frame_restore _ a).1]
    exact Ring.occupied_of_pop hpop

/-- A step that ends the pass leaves the Ready Queue as it is. -/
theorem ready_of_halts (m : Machine μ) (h : m.cleanNext.1.continues = false) :
    m.cleanNext.2.device.ready = m.device.ready := by
  unfold cleanNext at h ⊢
  split at h
  · simp only [*, if_true]
  split at h
  · simp only [*, Bool.false_eq_true, if_false, if_true]
    split
    · rfl
    · simp only [mapDevice, Device.stall]
      split <;> rfl
  split at h
  · simp only [*, Bool.false_eq_true, if_false]
  · unfold restore at h
    split at h <;> simp [CleanStep.continues] at h

/-- Cleans until a step ends the pass, and records the steps. -/
def cleanAll (m : Machine μ) (report : Report) : Report × Machine μ :=
  let next := m.cleanNext
  if next.1.continues then cleanAll next.2 (report.record next.1) else (report.record next.1, next.2)
termination_by m.device.ready.occupied
decreasing_by
  rename_i h
  have := occupied_of_continues m h
  omega

/-- A whole pass: open, clean, close. -/
def processReadyQueue (m : Machine μ) : Report × Machine μ :=
  let before := m.device.stats.notifications
  match (m.mapDevice Device.beginPass).cleanAll {} with
  | (report, m) =>
    ({ report with notifications := m.device.stats.notifications - before }, m.mapDevice Device.endPass)

end Machine

end VirtineCleaning

import VirtineCleaning.Device.Cleaning

/-!
# The worker

The worker of a device sleeps until the doorbell is rung, then runs a pass one step at a time, so that host accesses
may fall between two steps and a stop is seen before the next virtine. After a stop it gives up the notifier and ends.
Left to itself it comes to rest: `workLeft` bounds the steps it can still make.
-/

namespace VirtineCleaning

namespace Device

/-- The worker can make a step. -/
def hasWork (d : Device) : Bool :=
  match d.phase with
  | .waitingForDoorbell => d.doorbell || d.isStopping
  | .processing | .stopping => true
  | .terminated => false

/-- A bound on the steps that the worker can make without another access. -/
def workLeft (d : Device) : Nat :=
  match d.phase with
  | .waitingForDoorbell => if d.isStopping then 2 else if d.doorbell then d.ready.occupied + 5 else 0
  | .processing => d.ready.occupied + 3 + if d.doorbell then d.ready.occupied + 5 else 0
  | .stopping => 1
  | .terminated => 0

end Device

namespace Machine

variable {μ : Type} [VirtineMemory μ]

/-- The phase that follows a step of a pass. -/
def phaseAfter : CleanStep → Phase
  | .cleaned _ | .copyFailed _ => .processing
  | .stopped => .stopping
  | .drained | .stalled => .waitingForDoorbell

/-- One step of the worker; asleep or ended, it makes none. -/
def workerStep (m : Machine μ) : Machine μ :=
  match m.device.phase with
  | .waitingForDoorbell =>
    if m.device.isStopping then m.mapDevice ({ · with phase := .stopping })
    else if m.device.doorbell then m.mapDevice ({ ·.beginPass with phase := .processing })
    else m
  | .processing =>
    match m.cleanNext with
    | (step, m) =>
      if step.continues then m else m.mapDevice ({ ·.endPass with phase := phaseAfter step })
  | .stopping => m.mapDevice ({ ·.closeNotifications with phase := .terminated })
  | .terminated => m

/-- Each step of a worker that has work leaves it less. -/
theorem workLeft_workerStep (m : Machine μ) (h : m.device.hasWork) :
    m.workerStep.device.workLeft < m.device.workLeft := by
  unfold workerStep
  split
  · next hp =>
    split
    · next hs => simp [Device.workLeft, mapDevice, hp, hs]
    split
    · next hs hd => simp [Device.workLeft, mapDevice, Device.beginPass, hp, hs, hd]
    · next hs hd => simp [Device.hasWork, hp, hs, hd] at h
  · next hp =>
    have hframe := m.frame_cleanNext
    have hgo := m.occupied_of_continues
    have hhalt := m.ready_of_halts
    generalize m.cleanNext = next at *
    obtain ⟨step, n⟩ := next
    obtain ⟨hd, hph, -⟩ := hframe
    simp only at hd hph hgo hhalt ⊢
    split
    · next hc =>
      simp only [Device.workLeft, hp, hph, hd, ← hgo hc]
      split <;> omega
    · next hc =>
      have hr := hhalt (by simpa using hc)
      cases step <;> simp [Device.workLeft, mapDevice, Device.endPass, phaseAfter, hp, hd, hr] at hc ⊢ <;>
        grind [CleanStep.continues]
  · next hp => simp [Device.workLeft, mapDevice, Device.closeNotifications, hp]
  · next hp => simp [Device.hasWork, hp] at h

/-- The worker runs until it sleeps or has ended. -/
def settle (m : Machine μ) : Machine μ :=
  if m.device.hasWork then settle m.workerStep else m
termination_by m.device.workLeft
decreasing_by
  exact workLeft_workerStep m ‹_›

end Machine

end VirtineCleaning

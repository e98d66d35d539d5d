import VirtineCleaning.Coprocessor
import VirtineCleaning.Proofs.Device.Batches
import VirtineCleaning.Proofs.Device.Shutdown

/-!
# Stopping a worker

A worker that was not asked to stop is there, with its notifier, whatever the host does. Stopping it asks and then waits, and when the
wait is over it has ended and its notifier is gone (`ended_stop`). An ended worker stays ended: the host may still access the registers
and hold the receiver.
-/

namespace VirtineCleaning

namespace Device

/-- The queues of a device conserve what came to them, and its flags agree. -/
structure Sound (d : Device) : Prop extends d.Coherent where
  balanced : ∃ h, d.Balanced h

/-- The worker of a device was not asked to stop, has not ended and has its notifier. -/
structure Working (d : Device) : Prop where
  isStopping : d.isStopping = false
  phase : d.phase ≠ .terminated
  notifier : d.line.notifier ≠ none

/-- The worker of a device was asked to stop and has ended, with no pass running and the notifier gone. -/
structure Ended (d : Device) : Prop where
  isStopping : d.isStopping = true
  phase : d.phase = .terminated
  isProcessing : d.isProcessing = false
  notifier : d.line.notifier = none

namespace Sound

variable {d : Device}

theorem ofConfig (c : Config) : (Device.ofConfig c).Sound := by
  have hcoherent : (Device.ofConfig c).Coherent := Coherent.fresh c.batchFactor rfl
  exact { hcoherent with balanced := ⟨[], Balanced.fresh c.batchFactor _⟩ }

/-- Nothing but a stop ends a worker. -/
theorem working (h : d.Sound) (hs : d.isStopping = false) : d.Working := by
  have hphase : d.phase ≠ .terminated := by
    intro hp
    rw [h.stopping_of_ended (.inr hp)] at hs
    cases hs
  exact ⟨hs, hphase, mt h.notifier_eq_none_iff.mp hphase⟩

theorem ended (h : d.Sound) (hs : d.isStopping = true) (hp : d.phase = .terminated) : d.Ended where
  isStopping := hs
  phase := hp
  isProcessing := by
    rw [Bool.eq_false_iff, ne_eq, h.processing_iff, hp]
    nofun
  notifier := h.notifier_eq_none_iff.mpr hp

end Sound

/-- A use of the receiver leaves the flags in agreement. -/
theorem Coherent.use {d : Device} (h : d.Coherent) (u : ReceiverUse) : Coherent { d with line := (d.line.use u).2 } :=
  { h with
    notifier_eq_none_iff := by
      dsimp only
      rw [Line.notifier_use]
      exact h.notifier_eq_none_iff }

/-- From one device to another nothing happened that a worker does not survive, and an ended worker did not come back. -/
structure Continues (d e : Device) : Prop where
  sound : d.Sound → e.Sound
  isStopping : e.isStopping = d.isStopping
  terminated : d.isStopping = true → d.phase = .terminated → e.phase = .terminated

namespace Continues

variable {d e : Device}

theorem refl (d : Device) : d.Continues d := ⟨id, rfl, fun _ => id⟩

theorem ended (h : d.Continues e) (hd : d.Sound) (hend : d.Ended) : e.Ended :=
  (h.sound hd).ended (h.isStopping.trans hend.isStopping) (h.terminated hend.isStopping hend.phase)

/-- The receiver of a device may be used, or go away. -/
theorem use (d : Device) (u : ReceiverUse) : d.Continues { d with line := (d.line.use u).2 } where
  sound h :=
    { h.toCoherent.use u with
      balanced := by
        obtain ⟨history, hb⟩ := h.balanced
        exact ⟨history, { hb with }⟩ }
  isStopping := rfl
  terminated _ hp := hp

end Continues

end Device

namespace Machine

variable {μ : Type} [VirtineMemory μ]

open Device

/-- Neither an access nor a step of the worker asks for a stop. -/
theorem isStopping_apply (m : Machine μ) {a : Action} (ha : a.isAccess = true ∨ a = .work) :
    (m.apply a).device.isStopping = m.device.isStopping := by
  cases a with
  | read offset length => exact (m.device.read_frame offset length).2.2
  | write offset bytes => exact (m.device.write_frame offset bytes).2.2.2
  | signal => exact m.device.ringDoorbell_frame.2.2.2
  | work =>
    obtain ⟨_, _, _, _, _, _, _, _, _, heq, -⟩ := m.workerStep_frame
    change m.workerStep.device.isStopping = _
    rw [heq]
  | _ => simp [Action.isAccess] at ha

/-- A worker goes on through accesses and its own steps. -/
theorem continues_apply (m : Machine μ) {a : Action} (ha : a.isAccess = true ∨ a = .work) :
    m.device.Continues (m.apply a).device := by
  have hlive := Action.isLive_of ha
  refine ⟨fun h => ?_, m.isStopping_apply ha, fun hs hp => ?_⟩
  · obtain ⟨history, hb⟩ := h.balanced
    exact { coherent_apply hlive hb h.toCoherent with balanced := ⟨_, balanced_apply a hb⟩ }
  · have hsteps := stepsToEnd_apply hlive hs
    have hzero : m.device.stepsToEnd = 0 := by rw [stepsToEnd, hp]
    exact terminated_of_stepsToEnd (by omega)

/-- Settling is a number of steps of the worker, after which it has no work. -/
theorem settle_rests (m : Machine μ) :
    (∃ k, m.settle = m.run (List.replicate k .work)) ∧ m.settle.device.hasWork = false := by
  fun_induction settle m with
  | case1 m hwork ih =>
    obtain ⟨⟨k, hrun⟩, hrest⟩ := ih
    exact ⟨⟨k + 1, hrun⟩, hrest⟩
  | case2 m hidle => exact ⟨⟨0, rfl⟩, Bool.eq_false_iff.mpr hidle⟩

/-- A worker that is stopped ends, whatever it was doing. -/
theorem ended_stop {m : Machine μ} (h : m.device.Sound) : m.stop.device.Sound ∧ m.stop.device.Ended := by
  obtain ⟨history, hb⟩ := h.balanced
  obtain ⟨⟨k, hrun⟩, hrest⟩ := (m.apply .requestStop).settle_rests
  have hstop : m.stop = m.run (.requestStop :: List.replicate k .work) := hrun
  have hlive : ∀ a ∈ Action.requestStop :: List.replicate k .work, a.isLive = true := by
    intro a ha
    rcases List.mem_cons.mp ha with rfl | hwork
    · rfl
    · rw [List.eq_of_mem_replicate hwork]
      rfl
  obtain ⟨hb', hc'⟩ := balanced_coherent_run hlive hb h.toCoherent
  have hs : m.stop.device.isStopping = true := by
    rw [hstop]
    exact isStopping_of_mem hlive List.mem_cons_self
  rw [← hstop] at hb' hc'
  have hsound : m.stop.device.Sound := { hc' with balanced := ⟨_, hb'⟩ }
  -- a worker that was asked to stop rests only when it has ended
  have hidle : m.stop.device.hasWork = false := hrest
  have hp : m.stop.device.phase = .terminated := by
    by_contra hp
    rw [hasWork_of_stopping hs hp] at hidle
    cases hidle
  exact ⟨hsound, hsound.ended hs hp⟩

end Machine

end VirtineCleaning

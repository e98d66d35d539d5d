import VirtineCleaning.Proofs.Session.Round

/-!
# The end of a session

Once everything came back, the host stops the listener, drains its receiver and lets it go, and looks at the counters and at the
memory, while the worker may still make steps. These find nothing to clean and raise nothing, so all that was raised was heard,
drained or coalesced, and what the host sees of the memory is what it leaves.
-/

namespace VirtineCleaning

namespace Session

open SimulatedDevice (attached listening)

variable {c : Config} {o : Options} {l : Layout} {start : DenseMemory} {log : List PlatformEvent} {s : Scene}
  {r : Reception DenseMemory} {h : History}

/-! ## The worker alone -/

/-- The worker made a number of steps. -/
def Worked (r r' : Reception DenseMemory) : Prop := ∃ k, r' = r.run (List.replicate k (.act .work))

/-- What every step of the worker keeps stays. -/
theorem Worked.keeps {P : Reception DenseMemory → Prop} {r r' : Reception DenseMemory} (hw : Worked r r')
    (hP : ∀ r, P r → P (r.take (.act .work))) (hr : P r) : P r' := by
  obtain ⟨k, rfl⟩ := hw
  induction k generalizing r with
  | zero => exact hr
  | succ k ih => exact ih (hP r hr)

/-- All stays done, and with nothing to raise the worker leaves the line alone. -/
theorem Worked.done {r r' : Reception DenseMemory} (hw : Worked r r') (hfits : l.Fits o start.size)
    (hd : ∃ h, Done c o l start r h) :
    (∃ h, Done c o l start r' h) ∧ r'.machine.device.line = r.machine.device.line := by
  refine hw.keeps (P := fun n => (∃ h, Done c o l start n h) ∧ n.machine.device.line = r.machine.device.line) ?_ ⟨hd, rfl⟩
  rintro n ⟨⟨h, hd⟩, hline⟩
  exact ⟨⟨_, hd.work⟩, (hd.line_work hfits).trans hline⟩

/-- Where nobody listens, nothing but steps of the worker is made while a moment passes. -/
theorem pause_attached (y : System) (c : Config) (log : List PlatformEvent) (moment : Nat) (r : Reception DenseMemory)
    (irq : Option Nat) :
    ∃ r', Worked r r' ∧
      y.pause ⟨attached c log r.machine irq none, moment⟩ = ⟨attached c log r'.machine irq none, moment + 1⟩ := by
  obtain ⟨k, hsteps⟩ := SimulatedDevice.foldl_beside_of_none c log irq (y.course moment (attached c log r.machine irq none)) r
  exact ⟨_, ⟨k, rfl⟩, congrArg (Scene.mk · (moment + 1)) hsteps⟩

/-- Stopping the worker leaves the memory as it is. -/
theorem memory_stop {μ : Type} [VirtineMemory μ] (m : Machine μ) : m.stop.memory = m.memory := by
  obtain ⟨⟨k, hrun⟩, -⟩ := (m.apply .requestStop).settle_rests
  have hstop : m.stop = (m.apply .requestStop).run (List.replicate k .work) := hrun
  have hlive : ∀ a ∈ List.replicate k Action.work, a.isLive = true := by
    intro a ha
    rw [List.eq_of_mem_replicate ha]
    rfl
  rw [hstop]
  exact (Machine.quiescent_run hlive rfl).2.1

/-! ## The accounts -/

/-- What a session comes to whose listener has received what `r` tells: the worker makes steps before the receiver is drained, before
it is let go, before the counters are read, and before the memory is checked. -/
theorem conclude_eq (y : System) (c : Config) (o : Options) (l : Layout) (progress : Progress)
    (hdevice : (y.pause s).device = listening c log r) :
    ∃ r₂ r₃ r₄ r₅, Worked r r₂ ∧ Worked (r₂.take (.use .drain)) r₃ ∧ Worked (r₃.take (.use .drop)) r₄ ∧ Worked r₄ r₅ ∧
      conclude y c o l progress s =
        ({ virtines := o.virtines
           batchFactor := c.batchFactor
           snapshotSize := o.snapshotSize
           rounds := progress.rounds
           reclaimed := progress.reclaimed
           notifications := r₄.machine.device.counters.notifications
           notificationsDelivered := r.received.length + r₂.machine.device.line.pending.length
           notificationsCoalesced := r₄.machine.device.counters.notificationsCoalesced
           copyFailures := r₄.machine.device.counters.copyFailures
           verified := verify l o r₅.machine.memory }, SimulatedDevice.detach (attached c log r₅.machine none none)) := by
  obtain ⟨device, moment, hpause⟩ : ∃ device moment, y.pause s = ⟨device, moment⟩ := ⟨_, _, rfl⟩
  obtain rfl : device = listening c log r := by rwa [hpause] at hdevice
  have hunlisten : (listening c log r).unlisten = attached c log r.machine (some 0) none := rfl
  obtain ⟨r₂, hw₂, hpause₂⟩ := pause_attached y c log moment r (some 0)
  obtain ⟨r₃, hw₃, hpause₃⟩ := pause_attached y c log (moment + 1) (r₂.take (.use .drain)) none
  obtain ⟨r₄, hw₄, hpause₄⟩ := pause_attached y c log (moment + 1 + 1) (r₃.take (.use .drop)) none
  obtain ⟨r₅, hw₅, hpause₅⟩ := pause_attached y c log (moment + 1 + 1 + 1) r₄ none
  have hdrain : drainIrq y ⟨attached c log r₂.machine (some 0) none, moment + 1⟩ =
      (r₂.machine.device.line.pending.length,
        ⟨attached c log (r₃.take (.use .drop)).machine none none, moment + 1 + 1⟩) := by
    have htake : (attached c log r₂.machine (some 0) none).takeIrq = (some 0, attached c log r₂.machine none none) := rfl
    simp only [drainIrq, htake, SimulatedDevice.drain_attached, hpause₃, SimulatedDevice.dropReceiver_attached]
  refine ⟨r₂, r₃, r₄, r₅, hw₂, hw₃, hw₄, hw₅, ?_⟩
  simp only [conclude, hpause, hunlisten, hpause₂, hdrain, hpause₄, hpause₅]
  rfl

/-- After the last round all is done. -/
theorem Stands.done (h : Stands c o l start log false s.device o.virtines.toNat o.virtines.toNat) (y : System) :
    ∃ r h', (y.pause s).device = listening c log r ∧ r.machine.device.line.received = true ∧ Done c o l start r h' := by
  obtain ⟨k, r, calls, hunder, hrecords, hsubmitted, hreturned⟩ := h
  obtain ⟨k', r', hleads, hunder', -⟩ := hunder.pause y
  have hrecords' := hrecords.of_calm hleads.calm
  refine ⟨r', k'.history, hunder'.device_eq, hunder'.received, { hunder'.steady with given_eq := ?_, back_eq := ?_ }⟩
  · exact hrecords'.accepted.trans hsubmitted
  · rw [← hreturned, ← hrecords'.reclaimed, List.length_map]
    rfl

/-- What a session did that did all it was asked to, and what it left in the memory. -/
structure Completed (c : Config) (o : Options) (s : Summary) (memory : DenseMemory) : Prop where
  reclaimed : s.reclaimed = o.virtines.toNat
  rounds : s.rounds = (o.virtines.toNat + 99) / 100
  notifications : s.notifications = o.virtines.toNat / max 1 c.batchFactor.toNat
  delivered : s.notificationsDelivered + s.notificationsCoalesced = s.notifications
  copyFailures : s.copyFailures = 0
  verified : s.verified = true
  /-- The memory is as large as it was configured, and every byte of it is known. -/
  memory : ∀ i < c.memorySize.toNat, byte? memory i = some (o.image i)

/-- The accounts of a session whose rounds are over. -/
theorem completed_conclude (y : System) (hfits : l.Fits o c.memorySize) (hsize : start.size = c.memorySize)
    (hprimed : Primed l o start)
    (hstands : Stands c o l start log false s.device o.virtines.toNat o.virtines.toNat) :
    let done := conclude y c o l ⟨(o.virtines.toNat + 99) / 100, o.virtines.toNat⟩ s
    Completed c o done.1 done.2.platform.memory := by
  obtain ⟨r, h, hdevice, hthere, hd⟩ := hstands.done y
  obtain ⟨r₂, r₃, r₄, r₅, hw₂, hw₃, hw₄, hw₅, hconclude⟩ :=
    conclude_eq y c o l ⟨(o.virtines.toNat + 99) / 100, o.virtines.toNat⟩ hdevice
  rw [← hsize] at hfits
  -- between the end of the listener and that of its receiver nothing is raised, so what is not received or drained was coalesced
  obtain ⟨⟨h₂, hd₂⟩, hline₂⟩ := hw₂.done hfits ⟨h, hd⟩
  obtain ⟨⟨h₃, hd₃⟩, hline₃⟩ := hw₃.done hfits ⟨h₂, hd₂.use .drain⟩
  obtain ⟨⟨h₄, hd₄⟩, hline₄⟩ := hw₄.done hfits ⟨h₃, hd₃.use .drop⟩
  obtain ⟨⟨h₅, hd₅⟩, -⟩ := hw₅.done hfits ⟨h₄, hd₄⟩
  have hdrop : r₄.machine.device.line.notifier = r₃.machine.device.line.notifier :=
    (congrArg Line.notifier hline₄).trans (Line.notifier_use ..)
  have hdrain : r₃.machine.device.line.notifier = r₂.machine.device.line.notifier :=
    (congrArg Line.notifier hline₃).trans (Line.notifier_use ..)
  have hnotifier : r₄.machine.device.line.notifier = r.machine.device.line.notifier := by rw [hdrop, hdrain, hline₂]
  have hcoalesced := Device.coalesced_of_notifier hnotifier hd.notifier_ne_none
  have hdelivered := hd.delivered_eq hthere
  obtain ⟨-, hraised⟩ := hd.stats_eq hfits
  obtain ⟨hfailures, hraised₄⟩ := hd₄.stats_eq hfits
  dsimp only
  rw [hconclude]
  refine ⟨rfl, rfl, ?_, ?_, ?_, hd₅.verified hfits hprimed, ?_⟩
  · exact (congrArg Stats.notifications (Device.counters_eq _)).trans hraised₄
  · dsimp only
    rw [Device.counters_eq, hline₂, hcoalesced, hdelivered, hraised, hraised₄]
  · exact (congrArg Stats.copyFailures (Device.counters_eq _)).trans hfailures
  · intro i hi
    rw [← hsize] at hi
    rw [SimulatedDevice.memory_detach_attached, memory_stop]
    exact hd₅.byte?_eq hfits hprimed hi

end Session

end VirtineCleaning

import Mathlib.Data.List.DropRight
import Mathlib.Data.List.Infix
import VirtineCleaning.Memory.Dense
import VirtineCleaning.Proofs.Device.Ledger

/-!
# No lost wakeup

A ring of the doorbell announces what waits in the Ready Queue. A ring during a pass is dropped, and a pass may end with work left
when the Complete Queue is full; still, as long as something announced waits and no stop was requested, the doorbell is set, a pass
is running, or the device is stalled behind a full Complete Queue, and then the next address taken off that queue sets the doorbell
again (`no_lost_wakeup`). The invariant speaks of the history: what a device has handled never falls behind what was announced
unless one of the three holds.
-/

namespace VirtineCleaning

namespace History

/-- The addresses that were accepted before the doorbell was last rung. -/
def announced (h : History) : List Address := accepted (h.rdropWhile (· != .rung))

/-- The announced addresses that no step of cleaning has taken off the Ready Queue yet. -/
def waiting (h : History) : List Address := (announced h).drop (handled h).length

/-- A ring announces all that was accepted. -/
@[simp] theorem announced_rung (h : History) : announced (h ++ [.rung]) = accepted h := by
  simp [announced]

/-- No other event announces anything. -/
theorem announced_concat (h : History) {e : Event} (he : e ≠ .rung) : announced (h ++ [e]) = announced h := by
  rw [announced, List.rdropWhile_concat_pos _ _ _ (by simpa using he), announced]

/-- Where all that was accepted is announced, it stays so through events that neither ring nor accept anything. -/
theorem announced_append {h events : History} (ha : announced h = accepted h)
    (he : ∀ e ∈ events, e ≠ .rung ∧ e.accepted? = none) : announced (h ++ events) = accepted (h ++ events) := by
  induction events generalizing h with
  | nil => rwa [List.append_nil]
  | cons e rest ih =>
    obtain ⟨hring, hnone⟩ := he e List.mem_cons_self
    rw [List.append_cons]
    refine ih ?_ fun f hf => he f (List.mem_cons_of_mem e hf)
    rw [announced_concat h hring, accepted_append, accepted_singleton, hnone, Option.toList_none, List.append_nil, ha]

/-- What was announced was accepted first. -/
theorem announced_isPrefix (h : History) : announced h <+: accepted h :=
  List.IsPrefix.filterMap Event.accepted? (List.rdropWhile_prefix _ h)

/-- No more are announced than were accepted. -/
theorem length_announced_le (h : History) : (announced h).length ≤ (accepted h).length :=
  (announced_isPrefix h).length_le

/-- Something announced waits when less was handled than announced. -/
theorem waiting_ne_nil_iff (h : History) : waiting h ≠ [] ↔ (handled h).length < (announced h).length := by
  rw [waiting, ne_eq, List.drop_eq_nil_iff]
  omega

end History

open History

/-! ## The phase of the worker -/

/-- The phase tells whether a pass is running, and the worker ends only after a stop was requested. -/
structure Device.PhaseAgrees (d : Device) : Prop where
  processing_iff : d.isProcessing = true ↔ d.phase = .processing
  stopping_of_ended : d.phase = .stopping ∨ d.phase = .terminated → d.isStopping = true

namespace Device

namespace PhaseAgrees

variable {d e : Device}

theorem of_eq (h : d.PhaseAgrees)
    (he : e.isProcessing = d.isProcessing ∧ e.phase = d.phase ∧ e.isStopping = d.isStopping) : e.PhaseAgrees := by
  obtain ⟨hp, hph, hs⟩ := he
  exact ⟨by rw [hp, hph]; exact h.processing_iff, by rw [hph, hs]; exact h.stopping_of_ended⟩

theorem fresh (batchFactor : Word) (line : Line) : PhaseAgrees { batchFactor, line } :=
  ⟨by simp, by simp⟩

/-- Until a stop is requested, a worker whose doorbell is set has work. -/
theorem hasWork_of_doorbell (h : d.PhaseAgrees) (hs : d.isStopping = false) (hd : d.doorbell = true) :
    d.hasWork = true := by
  have hended := h.stopping_of_ended
  unfold hasWork
  cases hp : d.phase with
  | waitingForDoorbell => simp [hd]
  | processing => rfl
  | stopping => rfl
  | terminated => simp [hp, hs] at hended

/-- A worker in a pass has work. -/
theorem hasWork_of_processing (h : d.PhaseAgrees) (hp : d.isProcessing = true) : d.hasWork = true := by
  rw [hasWork, h.processing_iff.1 hp]

end PhaseAgrees

end Device

namespace Machine

variable {μ : Type} [VirtineMemory μ] {m : Machine μ} {h : History}

open Device

/-- A step of the worker keeps the phase in agreement. -/
theorem phaseAgrees_workerStep (ha : m.device.PhaseAgrees) : m.workerStep.device.PhaseAgrees := by
  have hcase := m.workerStep_case
  generalize m.workerStep = next at hcase
  cases hcase with
  | stop hp hs => exact ⟨by simp [mapDevice, ha.processing_iff, hp], fun _ => hs⟩
  | start => exact ⟨by simp [mapDevice, beginPass], by simp [mapDevice]⟩
  | go =>
    obtain ⟨_, _, _, _, _, _, heq, -⟩ := m.cleanNext_frame
    rw [heq]
    exact ha.of_eq ⟨rfl, rfl, rfl⟩
  | halt hp hc =>
    have hstep := m.cleanNext_case
    generalize m.cleanNext = next at hc hstep
    cases hstep with
    | stopped hs => exact ⟨by simp [mapDevice, endPass, phaseAfter], fun _ => hs⟩
    | drained => exact ⟨by simp [mapDevice, endPass, phaseAfter], by simp [mapDevice, phaseAfter]⟩
    | stalled => exact ⟨by simp [mapDevice, endPass, phaseAfter], by simp [mapDevice, phaseAfter]⟩
    | cleaned => cases hc
    | copyFailed => cases hc
  | close hp =>
    exact ⟨by simp [mapDevice, closeNotifications, ha.processing_iff, hp], fun _ => ha.stopping_of_ended (Or.inl hp)⟩
  | rest => exact ha

/-- Every live action keeps the phase in agreement. -/
theorem phaseAgrees_apply {a : Action} (hl : a.isLive = true) (ha : m.device.PhaseAgrees) :
    (m.apply a).device.PhaseAgrees := by
  cases a with
  | read offset length => exact ha.of_eq (m.device.read_frame offset length)
  | write offset bytes => exact ha.of_eq (m.device.write_frame offset bytes).2
  | signal => exact ha.of_eq m.device.ringDoorbell_frame.2
  | requestStop => exact ⟨ha.processing_iff, fun _ => rfl⟩
  | work => exact phaseAgrees_workerStep ha
  | _ => cases hl

end Machine

/-! ## Attention to what was announced -/

/-- The device will attend to what waits: the doorbell is set, a pass is running, or the Complete Queue is full and the next address
that leaves it rings again. -/
def Device.Attends (d : Device) : Prop :=
  d.doorbell = true ∨ d.isProcessing = true ∨ d.isStalled = true ∧ d.complete.isFull = true

/-- As long as no stop was requested, the device attends to what was announced and waits. -/
def Device.Attended (d : Device) (h : History) : Prop :=
  d.isStopping = false → (handled h).length < (announced h).length → d.Attends

/-- The announced addresses that wait are the oldest in the Ready Queue. -/
theorem Device.Balanced.waiting_isPrefix {d : Device} {h : History} (hb : d.Balanced h) : waiting h <+: d.ready.toList := by
  have hdrop := (announced_isPrefix h).drop (handled h).length
  rwa [hb.accepted_eq, List.drop_left] at hdrop

/-- Where the Ready Queue is empty, nothing that was announced waits. -/
theorem Device.Balanced.not_lt_of_drained {d : Device} {h : History} (hb : d.Balanced h)
    (hr : d.ready.isEmpty = true ∨ d.ready.pop = none) : ¬(handled h).length < (announced h).length := by
  have hnil : d.ready.toList = [] := by
    rcases hr with he | hp
    · rwa [hb.ready_holds.isEmpty_eq, List.isEmpty_iff] at he
    · exact hb.ready_holds.nil_of_pop hp
  have hle := length_announced_le h
  rw [hb.accepted_eq, hnil, List.append_nil] at hle
  omega

namespace Device.Attended

variable {d e : Device} {h k : History}

/-- Attention carries over where no more waits than before. -/
theorem of_eq (ha : d.Attended h) (hs : e.isStopping = d.isStopping) (hhandled : handled k = handled h)
    (hannounced : announced k = announced h) (hattends : d.Attends → e.Attends) : e.Attended k := by
  intro hstop hlt
  rw [hhandled, hannounced] at hlt
  exact hattends (ha (hs ▸ hstop) hlt)

/-- A ring is attended to, absorbed or not. -/
theorem ringDoorbell (d : Device) (k : History) : d.ringDoorbell.Attended k := by
  intro _ _
  unfold Device.ringDoorbell
  split
  · rename_i hp
    exact Or.inr (Or.inl hp)
  · exact Or.inl rfl

/-- Taking an address off the Complete Queue rings again when the device was stalled. -/
theorem dequeue (ha : d.Attended h) : d.dequeue.2.Attended (h ++ d.dequeueEvents) := by
  have hcase := d.dequeue_case
  generalize d.dequeue = next, d.dequeueEvents = events at hcase
  cases hcase with
  | empty => simpa using ha
  | taken =>
    refine ha.of_eq rfl (by simp) (announced_concat h nofun) ?_
    rintro (hd | hp | ⟨hst, -⟩)
    · exact Or.inl (by simp [hd])
    · exact Or.inr (Or.inl hp)
    · exact Or.inl (by simp [hst])

/-- A submission takes nothing from what was announced. -/
theorem enqueue (ha : d.Attended h) (w : Word) : (d.enqueue w).Attended (h ++ d.submitEvents w) := by
  have hcase := d.enqueue_case w
  generalize d.enqueue w = next, d.submitEvents w = events at hcase
  cases hcase with
  | zero => exact ha.of_eq rfl (by simp) (announced_concat h nofun) id
  | full => exact ha.of_eq rfl (by simp) (announced_concat h nofun) id
  | accepted => exact ha.of_eq rfl (by simp) (announced_concat h nofun) id

/-- Reads leave attended what was, a reclaim among them. -/
theorem read (ha : d.Attended h) (offset : Word) (length : Nat) :
    (d.read offset length).2.Attended (h ++ d.readEvents offset length) := by
  have hcase := d.read_case offset length
  generalize (d.read offset length).2 = next, d.readEvents offset length = events at hcase
  cases hcase with
  | reclaims => exact ha.dequeue.of_eq rfl rfl rfl id
  | looks => exact ha.of_eq rfl (by simp) (by simp) id

theorem write (ha : d.Attended h) (offset : Word) (bytes : List UInt8) :
    (d.write offset bytes).2.Attended (h ++ d.writeEvents offset bytes) := by
  have hcase := d.write_case offset bytes
  generalize d.submission? offset bytes = submission, (d.write offset bytes).2 = next,
    d.writeEvents offset bytes = events at hcase
  cases hcase with
  | submits w staged => exact enqueue (d := { d with stagedReadyTail := staged }) (ha.of_eq rfl rfl rfl id) w
  | rings => exact ringDoorbell d _
  | sets => exact ha.of_eq rfl (by simp) (by simp) id

end Device.Attended

namespace Machine

variable {μ : Type} [VirtineMemory μ] {m : Machine μ} {h : History}

open Device

/-- A step of the worker attends to what waits: a pass goes on while there is work, and ends for want of it or in a stall. -/
theorem attended_workerStep (hb : m.device.Balanced h) (hph : m.device.PhaseAgrees) (ha : m.device.Attended h) :
    (m.apply .work).device.Attended (h ++ m.events .work) := by
  have hcase := m.workerStep_case
  have hstep := m.cleanNext_case
  simp only [apply, events]
  generalize m.workerStep = next at hcase
  cases hcase with
  | stop hp hs =>
    intro hstop
    cases hs.symm.trans hstop
  | start =>
    intro _ _
    exact Or.inr (Or.inl rfl)
  | go hp =>
    intro _ _
    obtain ⟨_, _, _, _, _, _, heq, -⟩ := m.cleanNext_frame
    rw [heq]
    exact Or.inr (Or.inl (hph.processing_iff.2 hp))
  | halt hp hc =>
    rw [if_pos hp]
    generalize m.cleanNext = next at hc hstep
    cases hstep with
    | stopped hs =>
      intro hstop
      cases hs.symm.trans hstop
    | drained hs hr =>
      have hannounced : announced (h ++ [.stepped .drained]) = announced h := announced_concat h (by decide)
      intro _ hlt
      rw [hannounced] at hlt
      exact absurd (by simpa using hlt) (hb.not_lt_of_drained hr)
    | stalled hs hf =>
      intro _ _
      refine Or.inr (Or.inr ⟨?_, ?_⟩)
      · simp only [mapDevice, endPass, stall]
        split
        · assumption
        · rfl
      · simp only [mapDevice, endPass, stall]
        split <;> exact hf
    | cleaned => cases hc
    | copyFailed => cases hc
  | close hp =>
    intro hstop
    cases (hph.stopping_of_ended (Or.inl hp)).symm.trans hstop
  | rest hw =>
    have hp : m.device.phase ≠ .processing := by
      intro hp
      simp [hasWork, hp] at hw
    rw [if_neg hp, List.append_nil]
    exact ha

/-- Every live action keeps the device attending to what was announced. -/
theorem attended_apply {a : Action} (hl : a.isLive = true) (hb : m.device.Balanced h) (hph : m.device.PhaseAgrees)
    (ha : m.device.Attended h) : (m.apply a).device.Attended (h ++ m.events a) := by
  cases a with
  | read offset length => exact ha.read offset length
  | write offset bytes => exact ha.write offset bytes
  | signal => exact Attended.ringDoorbell m.device _
  | requestStop =>
    intro hstop
    cases hstop
  | work => exact attended_workerStep hb hph ha
  | _ => cases hl

/-- An access that changes the Complete Queue of a stalled device rings the doorbell and ends the stall. -/
theorem rearms_of_access {a : Action} (hacc : a.isAccess = true) (hst : m.device.isStalled = true)
    (hne : (m.apply a).device.complete ≠ m.device.complete) :
    (m.apply a).device.doorbell = true ∧ (m.apply a).device.isStalled = false := by
  cases a with
  | read offset length =>
    have hcase := m.device.read_case offset length
    simp only [apply, mapDevice] at hne ⊢
    generalize (m.device.read offset length).2 = next, m.device.readEvents offset length = events at hcase hne
    cases hcase with
    | reclaims =>
      have hcase := m.device.dequeue_case
      generalize m.device.dequeue = next, m.device.dequeueEvents = events at hcase hne
      cases hcase with
      | empty => exact absurd rfl hne
      | taken => exact ⟨by simp [hst], rfl⟩
    | looks => exact absurd rfl hne
  | write offset bytes => exact absurd (m.device.write_frame offset bytes).1 hne
  | signal => exact absurd m.device.ringDoorbell_frame.1 hne
  | _ => cases hacc

/-- A run of a device whose worker runs never loses a wakeup. As long as no stop was requested and something waits that was accepted
before the last ring, the doorbell is set, a pass is running, or the device is stalled behind a full Complete Queue, so that the
worker has work but for such a stall; and an access that takes an address off the Complete Queue of a stalled device sets the
doorbell and ends the stall. What waits is the oldest part of the Ready Queue. -/
theorem no_lost_wakeup (memory : μ) (batchFactor : Word) (line : Line) (actions : List Action)
    (hlive : ∀ a ∈ actions, a.isLive = true) :
    let m := (fresh memory batchFactor line).run actions
    let h := (fresh memory batchFactor line).history actions
    waiting h <+: m.device.ready.toList ∧
      (m.device.isStopping = false → waiting h ≠ [] →
        (m.device.doorbell = true ∨ m.device.isProcessing = true ∨
          m.device.isStalled = true ∧ m.device.complete.isFull = true) ∧
        (m.device.hasWork = true ∨ m.device.isStalled = true ∧ m.device.complete.isFull = true)) ∧
      ∀ a : Action, a.isAccess = true → m.device.isStalled = true →
        (m.apply a).device.complete ≠ m.device.complete →
        (m.apply a).device.doorbell = true ∧ (m.apply a).device.isStalled = false := by
  have hstart : (fresh memory batchFactor line).device.Balanced [] ∧
      (fresh memory batchFactor line).device.PhaseAgrees ∧ (fresh memory batchFactor line).device.Attended [] :=
    ⟨Device.Balanced.fresh batchFactor line, PhaseAgrees.fresh batchFactor line, fun _ hlt => absurd hlt (Nat.not_lt_zero _)⟩
  obtain ⟨hb, hph, ha⟩ := run_of_steps
    (P := fun m h => m.device.Balanced h ∧ m.device.PhaseAgrees ∧ m.device.Attended h)
    (fun a hmem m h ⟨hb, hph, ha⟩ => ⟨balanced_apply a hb, phaseAgrees_apply (hlive a hmem) hph,
      attended_apply (hlive a hmem) hb hph ha⟩) hstart
  rw [List.nil_append] at hb ha
  refine ⟨hb.waiting_isPrefix, ?_, fun a => rearms_of_access⟩
  intro hstop hwaiting
  have hattends := ha hstop ((waiting_ne_nil_iff _).1 hwaiting)
  refine ⟨hattends, ?_⟩
  rcases hattends with hd | hp | hst
  · exact Or.inl (hph.hasWork_of_doorbell hstop hd)
  · exact Or.inl (hph.hasWork_of_processing hp)
  · exact Or.inr hst

/-- A ring that a pass absorbs is not lost on the address submitted before it. -/
theorem no_lost_wakeup_absorbed_ring :
    let actions : List Action := [.write Register.readyTail.address [0, 16, 0, 0, 0, 0, 0, 0], .signal, .work,
      .write Register.readyTail.address [0, 32, 0, 0, 0, 0, 0, 0], .write Register.doorbell.address [1, 0, 0, 0]]
    let m := (fresh (DenseMemory.zeros 0) 1 (.ofCapacity 1)).run actions
    let h := (fresh (DenseMemory.zeros 0) 1 (.ofCapacity 1)).history actions
    (∀ a ∈ actions, a.isLive = true) ∧ m.device.doorbell = false ∧ (waiting h).length = 2 ∧
      (m.device.doorbell = true ∨ m.device.isProcessing = true ∨
        m.device.isStalled = true ∧ m.device.complete.isFull = true) ∧ m.device.hasWork = true := by
  refine ⟨by decide, by decide, by decide, ?_⟩
  have hwakeup := no_lost_wakeup (DenseMemory.zeros 0) 1 (.ofCapacity 1)
    [.write Register.readyTail.address [0, 16, 0, 0, 0, 0, 0, 0], .signal, .work,
      .write Register.readyTail.address [0, 32, 0, 0, 0, 0, 0, 0], .write Register.doorbell.address [1, 0, 0, 0]]
    (by decide)
  obtain ⟨hattends, -⟩ := hwakeup.2.1 (by decide) (by decide)
  exact ⟨hattends, by decide⟩

end Machine

end VirtineCleaning

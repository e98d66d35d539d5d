import VirtineCleaning.Memory.Dense
import VirtineCleaning.Proofs.Host.Interleaving

/-!
# The worker and the whole pass

A pass is there twice: as steps of the worker, which lets go of the lock between any two of them, and as one operation that loops.
From a rung doorbell on both lead to the same device and the same memory, and the worker waits again. So a host that only reads,
writes and signals cannot tell a worker that runs after each request from whole passes, run after each request that leaves the
doorbell set (`worker_agrees_with_passes`).
-/

namespace VirtineCleaning

/-- The worker waits, and no stop was requested. -/
structure Device.Idle (d : Device) : Prop where
  phase : d.phase = .waitingForDoorbell
  isStopping : d.isStopping = false

/-- The worker waits and has nothing to do. -/
structure Device.Asleep (d : Device) : Prop extends d.Idle where
  doorbell : d.doorbell = false

theorem Device.Asleep.hasWork {d : Device} (h : d.Asleep) : d.hasWork = false := by
  simp [Device.hasWork, h.phase, h.doorbell, h.isStopping]

/-! ## Requests to a bus -/

/-- A request that a host makes of a bus. -/
inductive Request where
  | read (offset : Word) (buffer : List UInt8)
  | write (offset : Word) (bytes : List UInt8)
  | signal
deriving DecidableEq, Repr

/-- The action that a request is of the device behind the bus. -/
def Request.action : Request → Action
  | .read offset buffer => .read offset buffer.length
  | .write offset bytes => .write offset bytes
  | .signal => .signal

namespace Bus

variable {σ : Type}

/-- Makes a request, and answers what was moved. -/
def perform (b : Bus σ) (s : σ) : Request → Transfer × σ
  | .read offset buffer =>
    match b.read offset buffer s with
    | ((count, buffer), s) => (.read offset buffer count, s)
  | .write offset bytes =>
    match b.write offset bytes s with
    | (count, s) => (.write offset bytes count, s)
  | .signal => (.signal, b.signal s)

/-- Makes requests one after the other: what each is answered, with the state that it leaves. -/
def serve (b : Bus σ) (s : σ) : List Request → List (Transfer × σ)
  | [] => []
  | request :: rest =>
    let reply := b.perform s request
    reply :: b.serve reply.2 rest

theorem perform_andThen (b : Bus σ) (after : σ → σ) (s : σ) (request : Request) :
    (b.andThen after).perform s request = ((b.perform s request).1, after (b.perform s request).2) := by
  cases request <;> rfl

/-- What happens after each request matters only in the states that a request can leave: `P` holds in them, and `Q` in the states
that are left to the next request. -/
theorem serve_andThen_congr {b : Bus σ} {f g : σ → σ} {P Q : σ → Prop} (hQ : ∀ s, Q s → P s)
    (hb : ∀ s request, P s → P (b.perform s request).2) (hf : ∀ s, P s → f s = g s ∧ Q (f s)) {s : σ} (hs : P s)
    (requests : List Request) :
    (b.andThen f).serve s requests = (b.andThen g).serve s requests ∧
      ∀ reply ∈ (b.andThen f).serve s requests, Q reply.2 := by
  induction requests generalizing s with
  | nil => exact ⟨rfl, nofun⟩
  | cons request rest ih =>
    obtain ⟨hfg, hkept⟩ := hf _ (hb s request hs)
    obtain ⟨hsame, hreplies⟩ := ih (hQ _ hkept)
    simp only [serve, perform_andThen, ← hfg, hsame]
    rw [hsame] at hreplies
    exact ⟨trivial, List.forall_mem_cons.2 ⟨hkept, hreplies⟩⟩

end Bus

namespace Machine

variable {μ : Type}

/-- The same machine, with its worker in another phase. -/
def inPhase (m : Machine μ) (phase : Phase) : Machine μ := m.mapDevice ({ · with phase })

@[simp] theorem phase_inPhase (m : Machine μ) (phase : Phase) : (m.inPhase phase).device.phase = phase := rfl

@[simp] theorem isStopping_inPhase (m : Machine μ) (phase : Phase) :
    (m.inPhase phase).device.isStopping = m.device.isStopping := rfl

@[simp] theorem ready_inPhase (m : Machine μ) (phase : Phase) : (m.inPhase phase).device.ready = m.device.ready := rfl

@[simp] theorem complete_inPhase (m : Machine μ) (phase : Phase) :
    (m.inPhase phase).device.complete = m.device.complete := rfl

theorem inPhase_self {m : Machine μ} {phase : Phase} (hp : m.device.phase = phase) : m.inPhase phase = m := by
  subst hp
  rfl

variable [VirtineMemory μ] {m : Machine μ}

open Device

/-! ## Steps and the loop -/

/-- The phase lies aside of cleaning. -/
theorem aside_inPhase (phase : Phase) : Aside ({ · with phase }) :=
  ⟨fun _ => rfl, fun _ => rfl, fun _ => rfl, fun _ => rfl, fun _ => rfl, fun _ _ => rfl, fun _ => rfl, fun _ => rfl⟩

theorem stall_inPhase (d : Device) (phase : Phase) : { d with phase }.stall = { d.stall with phase } := by
  unfold stall
  change (if d.isStalled then _ else _) = _
  split <;> rfl

theorem restore_inPhase (m : Machine μ) (phase : Phase) (a : Address) :
    (m.inPhase phase).restore a = ((m.restore a).1, (m.restore a).2.inPhase phase) :=
  restore_mapDevice (aside_inPhase phase) m a

/-- A step of cleaning does not look at the phase. -/
theorem cleanNext_inPhase (m : Machine μ) (phase : Phase) :
    (m.inPhase phase).cleanNext = (m.cleanNext.1, m.cleanNext.2.inPhase phase) := by
  cases hs : m.device.isStopping with
  | true => simp [cleanNext, hs]
  | false =>
    cases hf : m.device.complete.isFull with
    | true =>
      cases hr : m.device.ready.isEmpty with
      | true => simp [cleanNext, hs, hf, hr]
      | false =>
        have hstall : (m.inPhase phase).mapDevice stall = (m.mapDevice stall).inPhase phase :=
          congrArg (Machine.mk · m.memory) (stall_inPhase m.device phase)
        simp [cleanNext, hs, hf, hr, hstall]
    | false =>
      cases hp : m.device.ready.pop with
      | none => simp [cleanNext, hs, hf, hp]
      | some next =>
        simp only [cleanNext, isStopping_inPhase, complete_inPhase, ready_inPhase, hs, hf, hp, Bool.false_eq_true, if_false]
        exact restore_inPhase ⟨m.device.withReady next.2, m.memory⟩ phase next.1

/-- In a pass the worker makes the step of cleaning that the loop makes, and closes the pass where that step ends it. -/
theorem workerStep_processing (m : Machine μ) :
    (m.inPhase .processing).workerStep =
      if m.cleanNext.1.continues then m.cleanNext.2.inPhase .processing
      else (m.cleanNext.2.mapDevice endPass).inPhase (phaseAfter m.cleanNext.1) := by
  simp only [workerStep, phase_inPhase, cleanNext_inPhase]
  split <;> rfl

/-- Unless a stop was requested, the step that ends a pass sends the worker back to the doorbell. -/
theorem phaseAfter_of_halts (hs : m.device.isStopping = false) (hhalt : ¬m.cleanNext.1.continues = true) :
    phaseAfter m.cleanNext.1 = .waitingForDoorbell := by
  have hcase := m.cleanNext_case
  generalize m.cleanNext = next at hcase hhalt
  cases hcase with
  | stopped h => rw [hs] at h; cases h
  | drained => rfl
  | stalled => rfl
  | cleaned => exact absurd rfl hhalt
  | copyFailed => exact absurd rfl hhalt

/-- The worker makes one step for each step of the loop, in the processing phase, and the last one closes the pass. -/
theorem run_work_of_processing (m : Machine μ) (report : Report) (hs : m.device.isStopping = false) :
    (∀ j < m.passSteps.length, ((m.inPhase .processing).run (.replicate j .work)).device.phase = .processing) ∧
      (m.inPhase .processing).run (.replicate m.passSteps.length .work) =
        ((m.cleanAll report).2.mapDevice endPass).inPhase .waitingForDoorbell := by
  -- by induction on the loop; the report that it carries along plays no part
  fun_induction cleanAll m report with
  | case1 m report next hgo ih =>
    have hstep : (m.inPhase .processing).workerStep = next.2.inPhase .processing := by
      rw [workerStep_processing, if_pos hgo]
    obtain ⟨hbusy, hend⟩ := ih (m.frame_cleanNext.2.2.trans hs)
    have hlength : m.passSteps.length = next.2.passSteps.length + 1 := by
      rw [passSteps, if_pos hgo, List.length_cons]
    rw [hlength]
    constructor
    · intro j hj
      cases j with
      | zero => rfl
      | succ j =>
        change (((m.inPhase .processing).workerStep).run (.replicate j .work)).device.phase = _
        rw [hstep]
        exact hbusy j (by omega)
    · change ((m.inPhase .processing).workerStep).run (.replicate _ .work) = _
      rw [hstep]
      exact hend
  | case2 m report next hhalt =>
    rw [passSteps, if_neg hhalt, List.length_singleton]
    constructor
    · intro j hj
      obtain rfl : j = 0 := by omega
      rfl
    · change (m.inPhase .processing).workerStep = _
      rw [workerStep_processing, if_neg hhalt, phaseAfter_of_halts hs hhalt]

/-- The loop neither rings the doorbell nor moves the phase nor requests a stop. -/
theorem frame_cleanAll (m : Machine μ) (report : Report) :
    (m.cleanAll report).2.device.doorbell = m.device.doorbell ∧ (m.cleanAll report).2.device.phase = m.device.phase ∧
      (m.cleanAll report).2.device.isStopping = m.device.isStopping := by
  fun_induction cleanAll m report with
  | case1 m report next _ ih =>
    obtain ⟨hd, hp, hs⟩ := m.frame_cleanNext
    exact ⟨ih.1.trans hd, ih.2.1.trans hp, ih.2.2.trans hs⟩
  | case2 m => exact m.frame_cleanNext

/-- A whole pass takes the doorbell, and a device that was idle sleeps after it. -/
theorem asleep_processReadyQueue (hi : m.device.Idle) : m.processReadyQueue.2.device.Asleep := by
  obtain ⟨hd, hp, hs⟩ := (m.mapDevice beginPass).frame_cleanAll {}
  exact ⟨⟨hp.trans hi.phase, hs.trans hi.isStopping⟩, hd⟩

/-- A rung worker opens a pass with one step, goes through it with one step of cleaning at a time, and has then done what a whole
pass does. -/
theorem run_work_eq_processReadyQueue (hi : m.device.Idle) (hd : m.device.doorbell = true) :
    (∀ j < (m.mapDevice beginPass).passSteps.length, (m.run (.replicate (j + 1) .work)).device.phase = .processing) ∧
      m.run (.replicate ((m.mapDevice beginPass).passSteps.length + 1) .work) = m.processReadyQueue.2 := by
  have hopen : m.workerStep = (m.mapDevice beginPass).inPhase .processing := by
    simp only [workerStep, hi.phase, hi.isStopping, hd, Bool.false_eq_true, if_false, if_true]
    rfl
  obtain ⟨hbusy, hend⟩ := (m.mapDevice beginPass).run_work_of_processing {} hi.isStopping
  rw [← hopen] at hbusy hend
  refine ⟨hbusy, hend.trans (inPhase_self (asleep_processReadyQueue hi).phase)⟩

/-- A worker that has work for a number of steps and then none settles in that number of steps. -/
theorem settle_eq_run {k : Nat} (hbusy : ∀ j < k, (m.run (.replicate j .work)).device.hasWork = true)
    (hrest : (m.run (.replicate k .work)).device.hasWork = false) : m.settle = m.run (.replicate k .work) := by
  induction k generalizing m with
  | zero =>
    have hidle : ¬m.device.hasWork = true := Bool.eq_false_iff.1 hrest
    rw [settle, if_neg hidle]
    rfl
  | succ k ih =>
    have hwork : m.device.hasWork = true := hbusy 0 (by omega)
    rw [settle, if_pos hwork]
    exact ih (m := m.workerStep) (fun j hj => hbusy (j + 1) (by omega)) hrest

/-- An idle worker settles where a whole pass leads to, if the doorbell is set, and where it is, if not. -/
theorem settle_of_idle (hi : m.device.Idle) :
    m.settle = (if m.device.doorbell then m.processReadyQueue.2 else m) ∧ m.settle.device.Asleep := by
  by_cases hd : m.device.doorbell = true
  · obtain ⟨hbusy, hend⟩ := run_work_eq_processReadyQueue hi hd
    have hasleep := asleep_processReadyQueue hi
    have hsettle : m.settle = m.processReadyQueue.2 := by
      rw [← hend] at hasleep ⊢
      refine settle_eq_run (fun j hj => ?_) hasleep.hasWork
      cases j with
      | zero => simp [run, hasWork, hi.phase, hd]
      | succ j => simp [hasWork, hbusy j (by omega)]
    rw [if_pos hd, hsettle]
    exact ⟨rfl, hasleep⟩
  · have hasleep : m.device.Asleep := ⟨hi, Bool.eq_false_iff.2 hd⟩
    have hsettle : m.settle = m := settle_eq_run (k := 0) (fun j hj => absurd hj j.not_lt_zero) hasleep.hasWork
    rw [if_neg hd, hsettle]
    exact ⟨rfl, hasleep⟩

/-! ## What a host sees -/

/-- The window of a machine whose worker does not run, but on which a whole pass is run after each access that leaves the doorbell
set. -/
def passBus : Bus (Machine μ) := window.andThen fun m => if m.device.doorbell then m.processReadyQueue.2 else m

/-- A request to the window is an action of the machine. -/
theorem perform_window (m : Machine μ) (request : Request) :
    (window.perform m request).2 = m.apply request.action := by
  cases request with
  | read offset buffer => exact window_read offset buffer m
  | write offset bytes => exact window_write offset bytes m
  | signal => rfl

/-- No request to the window moves the phase or requests a stop. -/
theorem idle_perform_window (m : Machine μ) (request : Request) (hi : m.device.Idle) :
    (window.perform m request).2.device.Idle := by
  rw [perform_window]
  cases request with
  | read offset buffer =>
    obtain ⟨-, hp, hs⟩ := m.device.read_frame offset buffer.length
    exact ⟨hp.trans hi.phase, hs.trans hi.isStopping⟩
  | write offset bytes =>
    obtain ⟨-, -, hp, hs⟩ := m.device.write_frame offset bytes
    exact ⟨hp.trans hi.phase, hs.trans hi.isStopping⟩
  | signal =>
    obtain ⟨-, -, hp, hs⟩ := m.device.ringDoorbell_frame
    exact ⟨hp.trans hi.phase, hs.trans hi.isStopping⟩

/-- A worker that is rung while it waits, with no stop requested, goes through a pass and waits again, with the doorbell taken, in
the machine that a whole pass leads to. So whatever requests a host makes, each is answered by a machine whose worker runs until it
waits as by one on which whole passes are run, and leaves the same machine. -/
theorem worker_agrees_with_passes (m : Machine μ) (hi : m.device.Idle) :
    (m.device.doorbell = true →
      (∀ j < (m.mapDevice beginPass).passSteps.length,
        (m.run (.replicate (j + 1) .work)).device.phase = .processing) ∧
      m.run (.replicate ((m.mapDevice beginPass).passSteps.length + 1) .work) = m.processReadyQueue.2 ∧
      m.processReadyQueue.2.device.Asleep) ∧
    ∀ requests : List Request,
      bus.serve m requests = passBus.serve m requests ∧ ∀ reply ∈ bus.serve m requests, reply.2.device.Asleep := by
  constructor
  · intro hd
    obtain ⟨hbusy, hend⟩ := run_work_eq_processReadyQueue hi hd
    exact ⟨hbusy, hend, asleep_processReadyQueue hi⟩
  · exact Bus.serve_andThen_congr (P := fun m : Machine μ => m.device.Idle) (Q := fun m => m.device.Asleep)
      (fun _ h => h.toIdle) idle_perform_window (fun _ => settle_of_idle) hi

/-- Two virtines are cleaned in four steps: the pass is opened, each is cleaned, and nothing is left. -/
theorem worker_agrees_with_passes_on_two_virtines :
    let m := (fresh (DenseMemory.zeros 0) 1 (.ofCapacity 1)).run
      [.write Register.readyTail.address [0, 16, 0, 0, 0, 0, 0, 0], .write Register.readyTail.address [0, 32, 0, 0, 0, 0, 0, 0],
        .signal]
    let requests : List Request := [.read Register.completeHead.address (.replicate 8 0), .signal]
    m.device.Idle ∧ m.device.doorbell = true ∧ m.run (.replicate 4 .work) = m.processReadyQueue.2 ∧
      m.processReadyQueue.2.device.complete.toList.map (·.word) = [0x1000, 0x2000] ∧
      bus.serve m requests = passBus.serve m requests := by
  intro m requests
  have hi : m.device.Idle := ⟨by decide +kernel, by decide +kernel⟩
  have hd : m.device.doorbell = true := by decide +kernel
  obtain ⟨hpass, hserve⟩ := worker_agrees_with_passes m hi
  obtain ⟨-, hend, -⟩ := hpass hd
  have hsteps : (m.mapDevice beginPass).passSteps.length = 3 := by
    rw [passSteps, if_pos (by decide +kernel), passSteps, if_pos (by decide +kernel), passSteps, if_neg (by decide +kernel)]
    rfl
  rw [hsteps] at hend
  refine ⟨hi, hd, hend, ?_, (hserve requests).1⟩
  rw [← hend]
  decide +kernel

end Machine

end VirtineCleaning

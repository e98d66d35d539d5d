import VirtineCleaning.Proofs.Device.Effects

/-!
# Runs and their histories

A run is a machine that actions are applied to, in any order: accesses to the window, stop requests, the operations that make up a
pass, whole passes, and steps of the worker. Its history lists what became of the virtines on the way: the words submitted and how
they fared, the outcome of every step of cleaning, the addresses reclaimed and the rings of the doorbell. Nothing in a machine
remembers its history; statements about runs compare the two.
-/

namespace VirtineCleaning

/-- What a history notes. -/
inductive Event where
  /-- The doorbell was rung, absorbed by a running pass or not. -/
  | rung
  /-- An address entered the Ready Queue. -/
  | accepted (a : Address)
  | rejectedFull (a : Address)
  | rejectedZero
  /-- A step of cleaning came out so. -/
  | stepped (step : CleanStep)
  /-- An address left the Complete Queue. -/
  | reclaimed (a : Address)
deriving DecidableEq

/-- What happened in a run, in order. -/
abbrev History := List Event

/-- The address that entered the Ready Queue in an event. -/
@[simp] def Event.accepted? : Event → Option Address
  | .accepted a => some a
  | _ => none

/-- The outcome of the step of cleaning that an event is. -/
@[simp] def Event.step? : Event → Option CleanStep
  | .stepped step => some step
  | _ => none

/-- The address that left the Complete Queue in an event. -/
@[simp] def Event.reclaimed? : Event → Option Address
  | .reclaimed a => some a
  | _ => none

/-- The virtine that a step took off the Ready Queue. -/
@[simp] def CleanStep.handled? : CleanStep → Option Address
  | .cleaned a | .copyFailed a => some a
  | _ => none

/-- The virtine that a step cleaned. -/
@[simp] def CleanStep.cleaned? : CleanStep → Option Address
  | .cleaned a => some a
  | _ => none

/-- The virtine that a step dropped. -/
@[simp] def CleanStep.failed? : CleanStep → Option Address
  | .copyFailed a => some a
  | _ => none

namespace History

/-- The addresses that entered the Ready Queue, in order. -/
def accepted (h : History) : List Address := h.filterMap Event.accepted?

/-- The outcomes of the steps of cleaning, in order. -/
def steps (h : History) : List CleanStep := h.filterMap Event.step?

/-- The addresses that left the Complete Queue, in order. -/
def reclaimed (h : History) : List Address := h.filterMap Event.reclaimed?

/-- The addresses that steps of cleaning took off the Ready Queue, in order. -/
def handled (h : History) : List Address := h.steps.filterMap CleanStep.handled?

/-- The addresses that were cleaned, in order. -/
def cleaned (h : History) : List Address := h.steps.filterMap CleanStep.cleaned?

/-- The addresses whose copy failed, in order. -/
def failed (h : History) : List Address := h.steps.filterMap CleanStep.failed?

/-! ## Histories that grow -/

@[simp] theorem accepted_append (h k : History) : accepted (h ++ k) = accepted h ++ accepted k := List.filterMap_append

@[simp] theorem steps_append (h k : History) : steps (h ++ k) = steps h ++ steps k := List.filterMap_append

@[simp] theorem reclaimed_append (h k : History) : reclaimed (h ++ k) = reclaimed h ++ reclaimed k :=
  List.filterMap_append

@[simp] theorem handled_append (h k : History) : handled (h ++ k) = handled h ++ handled k := by
  simp only [handled, steps_append, List.filterMap_append]

@[simp] theorem cleaned_append (h k : History) : cleaned (h ++ k) = cleaned h ++ cleaned k := by
  simp only [cleaned, steps_append, List.filterMap_append]

@[simp] theorem failed_append (h k : History) : failed (h ++ k) = failed h ++ failed k := by
  simp only [failed, steps_append, List.filterMap_append]

@[simp] theorem accepted_singleton (e : Event) : accepted [e] = e.accepted?.toList := by
  cases e <;> rfl

@[simp] theorem reclaimed_singleton (e : Event) : reclaimed [e] = e.reclaimed?.toList := by
  cases e <;> rfl

@[simp] theorem handled_singleton (e : Event) : handled [e] = (e.step?.bind CleanStep.handled?).toList := by
  cases e with
  | stepped step => cases step <;> rfl
  | _ => rfl

@[simp] theorem cleaned_singleton (e : Event) : cleaned [e] = (e.step?.bind CleanStep.cleaned?).toList := by
  cases e with
  | stepped step => cases step <;> rfl
  | _ => rfl

@[simp] theorem failed_singleton (e : Event) : failed [e] = (e.step?.bind CleanStep.failed?).toList := by
  cases e with
  | stepped step => cases step <;> rfl
  | _ => rfl

/-- A virtine that was handled was either cleaned or dropped. -/
theorem length_handled (h : History) : (handled h).length = (cleaned h).length + (failed h).length := by
  unfold handled cleaned failed
  induction h.steps with
  | nil => rfl
  | cons step rest ih =>
    cases step <;>
      simp only [List.filterMap_cons, CleanStep.handled?, CleanStep.cleaned?, CleanStep.failed?, List.length_cons, ih] <;>
      omega

/-- Where no copy failed, all that was handled was cleaned. -/
theorem cleaned_eq_handled {h : History} (hf : failed h = []) : cleaned h = handled h := by
  unfold failed at hf
  unfold cleaned handled
  generalize h.steps = outcomes at hf ⊢
  induction outcomes with
  | nil => rfl
  | cons step rest ih =>
    cases step with
    | copyFailed => cases hf
    | cleaned a => exact congrArg (a :: ·) (ih hf)
    | _ => exact ih hf

end History

/-- One thing that is done to a machine. -/
inductive Action where
  | read (offset : Word) (length : Nat)
  | write (offset : Word) (bytes : List UInt8)
  /-- The doorbell is rung without an access to the window. -/
  | signal
  | requestStop
  | beginPass
  | cleanNext
  | endPass
  /-- A whole pass. -/
  | processReadyQueue
  /-- One step of the worker. -/
  | work
deriving DecidableEq

namespace Action

/-- The action is an access of the host. -/
def isAccess : Action → Bool
  | .read .. | .write .. | .signal => true
  | _ => false

/-- The action can befall a device whose worker runs: an access of the host, a stop request, or a step of the worker. -/
def isLive : Action → Bool
  | .requestStop | .work => true
  | a => a.isAccess

/-- An access, or a step of the worker, can. -/
theorem isLive_of {a : Action} (ha : a.isAccess = true ∨ a = .work) : a.isLive = true := by
  rcases ha with ha | rfl
  · cases a with
    | read | write | signal => rfl
    | _ => cases ha
  · rfl

end Action

namespace Device

/-- What the submission of a word leads to. -/
def submitEvents (d : Device) (w : Word) : History :=
  match Address.ofWord? w with
  | none => [.rejectedZero]
  | some a =>
    match d.ready.insert a with
    | .ok _ => [.accepted a]
    | .error _ => [.rejectedFull a]

/-- What taking an address off the Complete Queue leads to; nothing when it is empty. -/
def dequeueEvents (d : Device) : History :=
  match d.complete.pop with
  | some (a, _) => [.reclaimed a]
  | none => []

/-- What a read of the window leads to. -/
def readEvents (d : Device) (offset : Word) (length : Nat) : History :=
  if d.reclaims (decode offset length) then d.dequeueEvents else []

/-- What a write to the window leads to. -/
def writeEvents (d : Device) (offset : Word) (bytes : List UInt8) : History :=
  match d.submission? offset bytes with
  | some w => d.submitEvents w
  | none => if rings (decode offset bytes.length) then [.rung] else []

/-- The ways of a submission: zero is no address, a full queue refuses, and any other address enters. -/
inductive SubmitCase (d : Device) (w : Word) : Device → History → Prop where
  | zero (hw : w = 0) :
      SubmitCase d w { d with stats := { d.stats with rejectedZero := d.stats.rejectedZero + 1 } } [.rejectedZero]
  | full {a : Address} {e : QueueFull} (hw : a.word = w) (hi : d.ready.insert a = .error e) :
      SubmitCase d w { d with stats := { d.stats with rejectedFull := d.stats.rejectedFull + 1 } } [.rejectedFull a]
  | accepted {a : Address} {tail : Nat} {ready : VirtineQueue} (hw : a.word = w)
      (hi : d.ready.insert a = .ok (tail, ready)) :
      SubmitCase d w { d with ready, stats := { d.stats with submitted := d.stats.submitted + 1 } } [.accepted a]

theorem enqueue_case (d : Device) (w : Word) : SubmitCase d w (d.enqueue w) (d.submitEvents w) := by
  unfold enqueue submitEvents
  by_cases hw : w = 0
  · rw [Address.ofWord?, dif_pos hw]
    exact .zero hw
  · rw [Address.ofWord?, dif_neg hw]
    dsimp only
    cases hi : d.ready.insert ⟨w, hw⟩ with
    | ok entered => exact .accepted rfl hi
    | error e => exact .full rfl hi

/-- Where there is room, an address that is submitted waits behind the others, and the tail moves. -/
theorem enqueue_of_room {d : Device} {waiting : List Address} (h : d.ready.Holds waiting)
    (hroom : waiting.length < maxVirtines) (a : Address) :
    ∃ ready, ready.Holds (waiting ++ [a]) ∧ ready.tail = Ring.next d.ready.tail ∧
      d.enqueue a.word = { d with ready, stats := { d.stats with submitted := d.stats.submitted + 1 } } := by
  obtain ⟨ready, hinsert, hholds, -, htail⟩ := h.insert_of_room hroom a
  refine ⟨ready, hholds, htail, ?_⟩
  rw [enqueue, Address.ofWord?, dif_neg a.word_ne_zero]
  dsimp only
  rw [hinsert]

/-- The ways of a removal: nothing leaves an empty queue, and else the oldest address does, which ends a stall. -/
inductive ReclaimCase (d : Device) : Word × Device → History → Prop where
  | empty (hp : d.complete.pop = none) : ReclaimCase d (0, d) []
  | taken {a : Address} {complete : VirtineQueue} (hp : d.complete.pop = some (a, complete)) :
      ReclaimCase d (a.word, { d with
        complete
        stats := { d.stats with reclaimed := d.stats.reclaimed + 1 }
        doorbell := d.doorbell || d.isStalled
        isStalled := false }) [.reclaimed a]

theorem dequeue_case (d : Device) : ReclaimCase d d.dequeue d.dequeueEvents := by
  unfold dequeue dequeueEvents
  cases hp : d.complete.pop with
  | none => exact .empty hp
  | some next => exact .taken hp

/-- The ways of a read: it takes an address off the Complete Queue, or it changes nothing but the latch. -/
inductive ReadCase (d : Device) : Device → History → Prop where
  | reclaims (latch : Option Word) : ReadCase d { d.dequeue.2 with completeHeadLatch := latch } d.dequeueEvents
  | looks (latch : Option Word) : ReadCase d { d with completeHeadLatch := latch } []

theorem read_case (d : Device) (offset : Word) (length : Nat) :
    ReadCase d (d.read offset length).2 (d.readEvents offset length) := by
  unfold readEvents
  cases hr : d.reclaims (decode offset length) with
  | true =>
    obtain ⟨latch, heq⟩ := read_of_reclaims hr
    rw [heq, if_pos rfl]
    exact .reclaims latch
  | false =>
    obtain ⟨latch, heq⟩ := read_of_not_reclaims hr
    rw [heq, if_neg Bool.false_ne_true]
    exact .looks latch

/-- The ways of a write: it submits a word, rings the doorbell, or changes nothing but settings and staged halves. -/
inductive WriteCase (d : Device) : Option Word → Device → History → Prop where
  | submits (w : Word) (staged : Option HalfWord) :
      WriteCase d (some w) ({ d with stagedReadyTail := staged }.enqueue w) (d.submitEvents w)
  | rings : WriteCase d none d.ringDoorbell [.rung]
  | sets (batchFactor : Word) (snapshot : Snapshot) (stagedReadyTail stagedSnapshotAddress : Option HalfWord) :
      WriteCase d none { d with batchFactor, snapshot, stagedReadyTail, stagedSnapshotAddress } []

theorem write_case (d : Device) (offset : Word) (bytes : List UInt8) :
    WriteCase d (d.submission? offset bytes) (d.write offset bytes).2 (d.writeEvents offset bytes) := by
  unfold writeEvents
  cases hs : d.submission? offset bytes with
  | some w =>
    obtain ⟨staged, heq⟩ := write_of_submission hs
    rw [heq]
    exact .submits w staged
  | none =>
    cases hr : Device.rings (decode offset bytes.length) with
    | true =>
      rw [write_of_rings hr]
      exact .rings
    | false =>
      obtain ⟨batchFactor, snapshot, stagedReadyTail, stagedSnapshotAddress, heq⟩ := write_of_setting hs hr
      rw [heq]
      exact .sets batchFactor snapshot stagedReadyTail stagedSnapshotAddress

/-! ## What accesses leave alone -/

/-- A read neither opens nor closes a pass, nor moves the worker, nor requests a stop. -/
theorem read_frame (d : Device) (offset : Word) (length : Nat) :
    (d.read offset length).2.isProcessing = d.isProcessing ∧ (d.read offset length).2.phase = d.phase ∧
      (d.read offset length).2.isStopping = d.isStopping := by
  have hcase := d.read_case offset length
  generalize (d.read offset length).2 = next, d.readEvents offset length = events at hcase
  cases hcase with
  | reclaims =>
    have hcase := d.dequeue_case
    generalize d.dequeue = next, d.dequeueEvents = events at hcase
    cases hcase <;> exact ⟨rfl, rfl, rfl⟩
  | looks => exact ⟨rfl, rfl, rfl⟩

/-- Nor does a submission, which leaves the Complete Queue and its latch alone, too. -/
theorem enqueue_frame (d : Device) (w : Word) :
    (d.enqueue w).completeHeadLatch = d.completeHeadLatch ∧ (d.enqueue w).complete = d.complete ∧
      (d.enqueue w).isProcessing = d.isProcessing ∧ (d.enqueue w).phase = d.phase ∧
      (d.enqueue w).isStopping = d.isStopping := by
  have hcase := d.enqueue_case w
  generalize d.enqueue w = next, d.submitEvents w = events at hcase
  cases hcase <;> exact ⟨rfl, rfl, rfl, rfl, rfl⟩

/-- A ring changes neither the Complete Queue nor the phase of the worker. -/
theorem ringDoorbell_frame (d : Device) :
    d.ringDoorbell.complete = d.complete ∧ d.ringDoorbell.isProcessing = d.isProcessing ∧
      d.ringDoorbell.phase = d.phase ∧ d.ringDoorbell.isStopping = d.isStopping := by
  unfold ringDoorbell
  split <;> exact ⟨rfl, rfl, rfl, rfl⟩

/-- Nor does a write. -/
theorem write_frame (d : Device) (offset : Word) (bytes : List UInt8) :
    (d.write offset bytes).2.complete = d.complete ∧ (d.write offset bytes).2.isProcessing = d.isProcessing ∧
      (d.write offset bytes).2.phase = d.phase ∧ (d.write offset bytes).2.isStopping = d.isStopping := by
  have hcase := d.write_case offset bytes
  generalize d.submission? offset bytes = submission, (d.write offset bytes).2 = next,
    d.writeEvents offset bytes = events at hcase
  cases hcase with
  | submits w staged => exact (enqueue_frame { d with stagedReadyTail := staged } w).2
  | rings => exact d.ringDoorbell_frame
  | sets => exact ⟨rfl, rfl, rfl, rfl⟩

end Device

namespace Machine

variable {μ : Type}

/-- A machine whose device is new: its queues are empty, and its notifications go to `line`. -/
def fresh (memory : μ) (batchFactor : Word) (line : Line) : Machine μ := ⟨{ batchFactor, line }, memory⟩

variable [VirtineMemory μ]

/-- The outcomes of the steps of a pass, the one that ends it included. -/
def passSteps (m : Machine μ) : List CleanStep :=
  let next := m.cleanNext
  next.1 :: if next.1.continues then passSteps next.2 else []
termination_by m.device.ready.occupied
decreasing_by
  rename_i h
  have := occupied_of_continues m h
  omega

/-- The machine after an action. -/
def apply (m : Machine μ) : Action → Machine μ
  | .read offset length => m.mapDevice fun d => (d.read offset length).2
  | .write offset bytes => m.mapDevice fun d => (d.write offset bytes).2
  | .signal => m.mapDevice Device.ringDoorbell
  | .requestStop => m.mapDevice Device.requestStop
  | .beginPass => m.mapDevice Device.beginPass
  | .cleanNext => m.cleanNext.2
  | .endPass => m.mapDevice Device.endPass
  | .processReadyQueue => m.processReadyQueue.2
  | .work => m.workerStep

/-- What an action leads to. -/
def events (m : Machine μ) : Action → History
  | .read offset length => m.device.readEvents offset length
  | .write offset bytes => m.device.writeEvents offset bytes
  | .signal => [.rung]
  | .cleanNext => [.stepped m.cleanNext.1]
  | .processReadyQueue => (m.mapDevice Device.beginPass).passSteps.map .stepped
  | .work => if m.device.phase = .processing then [.stepped m.cleanNext.1] else []
  | .requestStop | .beginPass | .endPass => []

/-- The machine after actions, one after the other. -/
def run (m : Machine μ) (actions : List Action) : Machine μ := actions.foldl apply m

/-- What actions lead to, one after the other. -/
def history (m : Machine μ) : List Action → History
  | [] => []
  | a :: rest => m.events a ++ history (m.apply a) rest

theorem run_concat (m : Machine μ) (actions : List Action) (a : Action) :
    m.run (actions ++ [a]) = (m.run actions).apply a := by
  rw [run, List.foldl_append]
  rfl

/-! ## What each action keeps, a run keeps -/

/-- What every action of a run keeps, the run keeps. -/
theorem run_of_steps {P : Machine μ → History → Prop} {actions : List Action}
    (step : ∀ a ∈ actions, ∀ m h, P m h → P (m.apply a) (h ++ m.events a)) {m : Machine μ} {h : History} (hm : P m h) :
    P (m.run actions) (h ++ m.history actions) := by
  induction actions generalizing m h with
  | nil =>
    rw [history, List.append_nil]
    exact hm
  | cons a rest ih =>
    rw [history, ← List.append_assoc]
    exact ih (fun b hb => step b (List.mem_cons_of_mem a hb)) (step a List.mem_cons_self m h hm)

/-- Cleaning until a step ends the pass is a number of steps of cleaning. -/
theorem cleanAll_eq_run (m : Machine μ) (report : Report) :
    ∃ k, (m.cleanAll report).2 = m.run (List.replicate k .cleanNext) ∧
      m.passSteps.map .stepped = m.history (List.replicate k .cleanNext) := by
  fun_induction cleanAll m report with
  | case1 m report next hc ih =>
    obtain ⟨k, hrun, hsteps⟩ := ih
    refine ⟨k + 1, hrun, ?_⟩
    rw [passSteps, if_pos hc, List.map_cons, hsteps]
    rfl
  | case2 m report next hc =>
    refine ⟨1, rfl, ?_⟩
    rw [passSteps, if_neg hc]
    rfl

/-- A whole pass is opened, made of steps of cleaning, and closed. -/
theorem processReadyQueue_eq_run (m : Machine μ) :
    ∃ k, m.apply .processReadyQueue = m.run (.beginPass :: (List.replicate k .cleanNext ++ [.endPass])) ∧
      m.events .processReadyQueue = m.history (.beginPass :: (List.replicate k .cleanNext ++ [.endPass])) := by
  obtain ⟨k, hrun, hsteps⟩ := (m.mapDevice Device.beginPass).cleanAll_eq_run {}
  have hhistory : ∀ (n : Machine μ) (as : List Action), n.history (as ++ [.endPass]) = n.history as := by
    intro n as
    induction as generalizing n with
    | nil => rfl
    | cons a as ih => simp only [List.cons_append, history, ih]
  refine ⟨k, ?_, ?_⟩
  · simp only [apply, processReadyQueue, hrun, run, List.foldl_cons, List.foldl_append, List.foldl_nil]
  · simp only [events, hsteps, history, hhistory, List.nil_append, apply]

/-- What opening a pass, a step of cleaning and closing a pass keep, a whole pass keeps. -/
theorem processReadyQueue_of_steps {P : Machine μ → History → Prop}
    (step : ∀ a ∈ [Action.beginPass, .cleanNext, .endPass], ∀ m h, P m h → P (m.apply a) (h ++ m.events a))
    {m : Machine μ} {h : History} (hm : P m h) :
    P (m.apply .processReadyQueue) (h ++ m.events .processReadyQueue) := by
  obtain ⟨k, hrun, hevents⟩ := m.processReadyQueue_eq_run
  rw [hrun, hevents]
  refine run_of_steps (fun a ha => step a ?_) hm
  simp only [List.mem_cons, List.mem_append, List.mem_replicate, List.not_mem_nil, or_false] at ha ⊢
  rcases ha with rfl | ⟨-, rfl⟩ | rfl
  · exact Or.inl rfl
  · exact Or.inr (Or.inl rfl)
  · exact Or.inr (Or.inr rfl)

end Machine

end VirtineCleaning

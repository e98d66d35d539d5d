import VirtineCleaning.Proofs.Device.Notices
import VirtineCleaning.Proofs.Host.Interleaving
import VirtineCleaning.Session.System

/-!
# A listening device

While a session runs there is one simulated device, mapped first and attached. The session holds its receiver, has given it to a
listener, or is done with it. What happens beside the host is then an occurrence in a reception of the machine: a step of the
worker, or a poll of the listener (`beside_listening`). A system is restful if the worker has nothing left to do whenever a moment
is over.
-/

namespace VirtineCleaning

namespace Simulated

/-- A platform that maps one device, the first, whose receiver was given out. -/
def mapping (c : Config) (log : List PlatformEvent) (m : Machine DenseMemory) : Simulated :=
  { config := c, memory := m.memory, devices := #[m.device], mapped := some 0, log }

end Simulated

/-! ## A worker with nothing to do -/

/-- A worker has no step left exactly if it has no work. -/
theorem Device.workLeft_eq_zero_iff (d : Device) : d.workLeft = 0 ↔ d.hasWork = false := by
  unfold workLeft hasWork
  cases d.phase with
  | waitingForDoorbell => cases d.isStopping <;> cases d.doorbell <;> simp
  | processing => simp
  | stopping => simp
  | terminated => simp

/-- A worker that has no work makes no step. -/
theorem Machine.workerStep_of_idle {μ : Type} [VirtineMemory μ] {m : Machine μ} (h : m.device.hasWork = false) :
    m.workerStep = m := by
  have hcase := m.workerStep_case
  generalize m.workerStep = next at hcase
  cases hcase with
  | rest => rfl
  | stop hp hs => simp [Device.hasWork, hp, hs] at h
  | start hp _ hd => simp [Device.hasWork, hp, hd] at h
  | go hp => simp [Device.hasWork, hp] at h
  | halt hp => simp [Device.hasWork, hp] at h
  | close hp => simp [Device.hasWork, hp] at h

/-- A step leaves the worker one step less, if it had any left. -/
theorem Machine.workLeft_workerStep_le {μ : Type} [VirtineMemory μ] (m : Machine μ) :
    m.workerStep.device.workLeft ≤ m.device.workLeft - 1 := by
  cases hw : m.device.hasWork with
  | true =>
    have hless := m.workLeft_workerStep hw
    omega
  | false =>
    have hnone := m.device.workLeft_eq_zero_iff.2 hw
    rw [m.workerStep_of_idle hw]
    omega

/-! ## The device -/

/-- What a step beside the host is to a reception. -/
def Beside.occurrence : Beside → Occurrence
  | .work => .act .work
  | .hear => .use .poll

namespace SimulatedDevice

/-- The attached device of a machine, with its receiver or the listener that has it. -/
def attached (c : Config) (log : List PlatformEvent) (m : Machine DenseMemory) (irq : Option Nat)
    (listener : Option (Listener Nat)) : SimulatedDevice where
  platform := .mapping c log m
  registers := 0
  irq
  listener

/-- The attached device of a reception, with a listener that heard what was received. -/
def listening (c : Config) (log : List PlatformEvent) (r : Reception DenseMemory) : SimulatedDevice :=
  attached c log r.machine none (some { receiver := some 0, heard := r.received.toArray })

variable {c : Config} {log : List PlatformEvent} {m : Machine DenseMemory} {irq : Option Nat} {listener : Option (Listener Nat)}
  {r : Reception DenseMemory}

/-! ## Accesses -/

/-- A read of the window is a read of the window of the machine. -/
theorem window_read_listening (offset : Word) (buffer : List UInt8) :
    window.read offset buffer (listening c log r) =
      ((Machine.window.read offset buffer r.machine).1, listening c log (r.take (.act (.read offset buffer.length)))) := by
  refine Prod.ext rfl ?_
  exact congrArg (attached c log · none (some ⟨some 0, r.received.toArray⟩)) (Machine.window_read offset buffer r.machine)

/-- So is a write. -/
theorem window_write_listening (offset : Word) (bytes : List UInt8) :
    window.write offset bytes (listening c log r) =
      ((Machine.window.write offset bytes r.machine).1, listening c log (r.take (.act (.write offset bytes)))) := rfl

/-- And so is a ring of the doorbell. -/
theorem window_signal_listening : window.signal (listening c log r) = listening c log (r.take (.act .signal)) := rfl

/-! ## Steps beside the host -/

/-- A step of the worker is a step of the machine. -/
theorem beside_work : beside (attached c log m irq listener) .work = attached c log m.workerStep irq listener := rfl

/-- As long as the notifier is there, an iteration of the listener is a poll, and hears what is polled. -/
theorem iterate_mapping (hn : m.device.line.notifier ≠ none) (heard : Array Notification) :
    Listener.iterate Simulated.platform.poll Simulated.platform.dropReceiver (fun _ => true) ⟨some 0, heard⟩ (.mapping c log m) =
      (⟨some 0, heard ++ (m.device.line.use .poll).1.toArray⟩,
        .mapping c log (m.mapDevice fun d => { d with line := (d.line.use .poll).2 })) := by
  have hpoll : Simulated.platform.poll 0 (.mapping c log m) =
      (m.device.line.poll.1, .mapping c log ⟨{ m.device with line := m.device.line.poll.2 }, m.memory⟩) := rfl
  cases hp : m.device.line.pending with
  | nil =>
    have hline : m.device.line.poll = (.timeout, m.device.line) := by
      rw [Line.poll_nil hp, Option.isSome_iff_ne_none.2 hn, if_pos rfl]
    simp only [Listener.iterate, hpoll, Machine.mapDevice, Line.use, hline, Array.append_empty]
  | cons n rest =>
    simp only [Listener.iterate, hpoll, Machine.mapDevice, Line.use, Line.poll_cons hp, if_true,
      Array.append_singleton]

/-- So the listener that a device has hears what is polled. -/
theorem beside_hear (hn : m.device.line.notifier ≠ none) (heard : Array Notification) :
    beside (attached c log m irq (some ⟨some 0, heard⟩)) .hear =
      attached c log (m.mapDevice fun d => { d with line := (d.line.use .poll).2 }) irq
        (some ⟨some 0, heard ++ (m.device.line.use .poll).1.toArray⟩) := by
  simp only [beside, Attachment.hear, attached, Listener.iterateN, iterate_mapping hn heard]

/-- What happens beside the host is then an occurrence in the reception. -/
theorem beside_listening (hn : r.machine.device.line.notifier ≠ none) (b : Beside) :
    beside (listening c log r) b = listening c log (r.take b.occurrence) := by
  cases b with
  | work => rfl
  | hear =>
    have hheard : r.received.toArray ++ (r.machine.device.line.use .poll).1.toArray =
        (r.received ++ (r.machine.device.line.use .poll).1).toArray := List.append_toArray ..
    rw [listening, beside_hear hn, hheard]
    rfl

/-- Where nobody listens, what happens beside the host is a number of steps of the worker. -/
theorem foldl_beside_of_none (c : Config) (log : List PlatformEvent) (irq : Option Nat) (steps : List Beside)
    (r : Reception DenseMemory) :
    ∃ k, steps.foldl beside (attached c log r.machine irq none) =
      attached c log (r.run (List.replicate k (.act .work))).machine irq none := by
  induction steps generalizing r with
  | nil => exact ⟨0, rfl⟩
  | cons b rest ih =>
    cases b with
    | work =>
      obtain ⟨k, hrun⟩ := ih (r.take (.act .work))
      exact ⟨k + 1, hrun⟩
    | hear => exact ih r

/-! ## A device to which nothing happens -/

/-- The worker has nothing to do, and nothing is pending on a line that is open. -/
structure Quiet (m : Machine DenseMemory) : Prop where
  hasWork : m.device.hasWork = false
  pending : m.device.line.pending = []
  notifier : m.device.line.notifier ≠ none

/-- So nothing happens beside the host, whether somebody listens or not. -/
theorem beside_of_quiet (h : Quiet m) (hl : ∀ l, listener = some l → l.receiver = some 0) (b : Beside) :
    beside (attached c log m irq listener) b = attached c log m irq listener := by
  cases b with
  | work => rw [beside_work, Machine.workerStep_of_idle h.hasWork]
  | hear =>
    cases listener with
    | none => rfl
    | some l =>
      obtain ⟨receiver, heard⟩ := l
      obtain rfl : receiver = some 0 := hl _ rfl
      have hline : m.device.line.use .poll = ([], m.device.line) := by
        rw [Line.use, Line.poll_nil h.pending, Option.isSome_iff_ne_none.2 h.notifier, if_pos rfl]
      rw [beside_hear h.notifier, Machine.mapDevice, hline, Array.append_empty]

/-! ## The end -/

/-- What is drained is what is pending. -/
theorem drain_attached (r : Reception DenseMemory) :
    drain 0 (attached c log r.machine irq none) =
      (r.machine.device.line.pending.length, attached c log (r.take (.use .drain)).machine irq none) := rfl

/-- Then the receiver goes away. -/
theorem dropReceiver_attached (r : Reception DenseMemory) :
    dropReceiver 0 (attached c log r.machine irq none) = attached c log (r.take (.use .drop)).machine irq none := rfl

/-- A device that is detached stops its worker. -/
theorem memory_detach_attached : (detach (attached c log m none none)).platform.memory = m.stop.memory := rfl

/-! ## What is told of a device -/

/-- After a step of the worker as much is told as there is to tell of the device after it. -/
theorem told_work {α : Type} (a : SimulatedDevice) (absent : α) (f : Device → α) :
    told (beside a .work) absent f = told a absent fun d => f (Machine.workerStep ⟨d, a.platform.memory⟩).device := by
  obtain ⟨⟨config, memory, failAt, devices, mapped, irq, log⟩, registers, held, listener, attached⟩ := a
  by_cases hi : registers < devices.size
  · simp [told, beside, onPlatform, Simulated.work, Simulated.onMachine, hi]
  · simp [told, beside, onPlatform, Simulated.work, Simulated.onMachine, hi]

/-- What has nothing to do with lines is told alike after an operation on a line. -/
theorem told_onLine {α β : Type} {f : Device → α} (hf : ∀ (d : Device) (line : Line), f { d with line } = f d)
    (s : Simulated) (i j : Nat) (none : β) (g : Line → β × Line) :
    (s.onLine i none g).2.devices[j]?.map f = s.devices[j]?.map f := by
  obtain ⟨config, memory, failAt, devices, mapped, irq, log⟩ := s
  by_cases hi : i < devices.size
  · by_cases hij : i = j
    · subst hij
      simp [Simulated.onLine, Simulated.onMachine, hi, hf]
    · simp [Simulated.onLine, Simulated.onMachine, hi, hij]
  · simp [Simulated.onLine, Simulated.onMachine, hi]

/-- So it is after an iteration of the listener. -/
theorem told_hear {α : Type} {f : Device → α} (hf : ∀ (d : Device) (line : Line), f { d with line } = f d)
    (a : SimulatedDevice) (absent : α) : told (beside a .hear) absent f = told a absent f := by
  have hpoll : ∀ (i j : Nat) (s : Simulated), (Simulated.platform.poll i s).2.devices[j]?.map f = s.devices[j]?.map f :=
    fun i j s => told_onLine hf s i j _ _
  have hdrop : ∀ (i j : Nat) (s : Simulated), (Simulated.platform.dropReceiver i s).devices[j]?.map f = s.devices[j]?.map f :=
    fun i j s => told_onLine hf s i j _ _
  obtain ⟨s, registers, held, listener, attached⟩ := a
  cases listener with
  | none => rfl
  | some l =>
    obtain ⟨receiver, heard⟩ := l
    cases receiver with
    | none => rfl
    | some receiver =>
      have hpolled := hpoll receiver registers s
      simp only [told, beside, Attachment.hear, Listener.iterateN, Listener.iterate]
      generalize Simulated.platform.poll receiver s = answer at hpolled
      obtain ⟨receipt, s'⟩ := answer
      cases receipt with
      | notification n => exact congrArg (·.getD absent) hpolled
      | timeout => exact congrArg (·.getD absent) hpolled
      | disconnected => exact congrArg (·.getD absent) ((hdrop receiver registers s').trans hpolled)

end SimulatedDevice

/-! ## Systems that let the worker rest -/

namespace Session

open SimulatedDevice (told)

/-- Whenever a moment is over, the worker has nothing left to do. -/
def System.Restful (y : System) : Prop :=
  ∀ (moment : Nat) (a : SimulatedDevice), told ((y.course moment a).foldl SimulatedDevice.beside a) false Device.hasWork = false

/-- A worker has no work left after as many steps as it can make. -/
theorem told_hasWork_of_workLeft {k : Nat} {a : SimulatedDevice} (hk : told a 0 Device.workLeft ≤ k) :
    told ((List.replicate k Beside.work).foldl SimulatedDevice.beside a) false Device.hasWork = false := by
  induction k generalizing a with
  | zero =>
    rw [told] at hk
    change told a false Device.hasWork = false
    rw [told]
    cases hd : a.platform.devices[a.registers]? with
    | none => rfl
    | some d =>
      rw [hd] at hk
      exact d.workLeft_eq_zero_iff.1 (Nat.le_zero.1 hk)
  | succ k ih =>
    refine ih (a := SimulatedDevice.beside a .work) ?_
    rw [SimulatedDevice.told_work]
    rw [told] at hk ⊢
    cases hd : a.platform.devices[a.registers]? with
    | none => exact k.zero_le
    | some d =>
      rw [hd] at hk
      have hless := Machine.workLeft_workerStep_le (⟨d, a.platform.memory⟩ : Machine DenseMemory)
      have hk : d.workLeft ≤ k + 1 := hk
      change (Machine.workerStep ⟨d, a.platform.memory⟩).device.workLeft ≤ k
      dsimp only at hless
      omega

/-- What the listener does leaves it at that. -/
theorem told_hasWork_of_hears (hears : Nat) {a : SimulatedDevice} (h : told a false Device.hasWork = false) :
    told ((List.replicate hears Beside.hear).foldl SimulatedDevice.beside a) false Device.hasWork = false := by
  induction hears generalizing a with
  | zero => exact h
  | succ hears ih => exact ih ((SimulatedDevice.told_hear (fun _ _ => rfl) a false).trans h)

/-- A system rests if at every moment the worker makes all the steps that it can make before the listener makes any. -/
theorem System.restful_of_course {y : System}
    (h : ∀ moment a, ∃ hears, y.course moment a =
      List.replicate (told a 0 Device.workLeft) .work ++ List.replicate hears .hear) : y.Restful := by
  intro moment a
  obtain ⟨hears, hcourse⟩ := h moment a
  rw [hcourse, List.foldl_append]
  exact told_hasWork_of_hears hears (told_hasWork_of_workLeft (Nat.le_refl _))

end Session

end VirtineCleaning

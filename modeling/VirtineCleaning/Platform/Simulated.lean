import VirtineCleaning.Coprocessor
import VirtineCleaning.Memory.Dense
import VirtineCleaning.Platform.Basic

/-!
# The simulated platform

A platform in which mapping the registers makes a coprocessor over a memory that the host shares. Mapping again puts a
new device in the place of the old one, which is stopped; the old one stays in reach of the handles it gave out. A
device needs a worker, which the system can refuse to start. Steps that are taken are written to a log, but two that
fail are not: a mapping without a worker, and an allocation of an interrupt that is not there.
-/

namespace VirtineCleaning

/-- A step of a platform as its log records it. -/
inductive PlatformEvent where
  | acquired (stage : Stage)
  | failed (stage : Stage)
  | released (stage : Stage)
deriving DecidableEq, Repr

/-- The state of a simulated platform. A device, the bus to it and its receiver are known by the number of the mapping
that made it. -/
structure Simulated where
  config : Config
  memory : DenseMemory
  /-- The stage that is made to fail. -/
  failAt : Option Stage := none
  /-- Every device that was mapped, oldest first. -/
  devices : Array Device := #[]
  /-- The device that is mapped now. -/
  mapped : Option Nat := none
  /-- The receiver that has not been given out. -/
  irq : Option Nat := none
  log : List PlatformEvent := []

namespace Simulated

/-- A platform with a memory of zeros, if the configuration is valid. -/
def ofConfig (config : Config) : Except PlatformError Simulated :=
  match config.validate with
  | .error e => .error (.config e)
  | .ok () => .ok { config, memory := .zeros config.memorySize }

/-- Applies an operation to the machine made of device `i` and the memory. -/
def onMachine {α : Type} (s : Simulated) (i : Nat) (absent : α)
    (f : Machine DenseMemory → α × Machine DenseMemory) : α × Simulated :=
  let ⟨config, memory, failAt, devices, mapped, irq, log⟩ := s
  if h : i < devices.size then
    match f ⟨devices[i], memory⟩ with
    | (a, ⟨device, memory⟩) => (a, ⟨config, memory, failAt, devices.set i device h, mapped, irq, log⟩)
  else (absent, ⟨config, memory, failAt, devices, mapped, irq, log⟩)

/-- Applies an operation to the line of device `i`. -/
def onLine {α : Type} (s : Simulated) (i : Nat) (absent : α) (f : Line → α × Line) : α × Simulated :=
  s.onMachine i absent fun m =>
    match f m.device.line with
    | (a, line) => (a, { m with device := { m.device with line } })

/-- The device that is mapped now. -/
def device? (s : Simulated) : Option Device := s.mapped.bind fun i => s.devices[i]?

/-- Writes an event to the log. -/
def record (s : Simulated) (e : PlatformEvent) : Simulated := { s with log := s.log ++ [e] }

/-- Fails at a stage that is made to fail, and records the failure. -/
def attempt (s : Simulated) (stage : Stage) : Except PlatformError Unit × Simulated :=
  if s.failAt = some stage then (.error (.injected stage), s.record (.failed stage)) else (.ok (), s)

/-- A stage that needs nothing of the platform. -/
def acquirePlain (s : Simulated) (stage : Stage) : Except PlatformError Unit × Simulated :=
  match s.attempt stage with
  | (.error e, s) => (.error e, s)
  | (.ok (), s) => (.ok (), s.record (.acquired stage))

/-- Stops the worker of device `i`. -/
def stopDevice (s : Simulated) (i : Nat) : Simulated := (s.onMachine i () fun m => ((), m.stop)).2

/-- Stops the device that is mapped now, if any. -/
def stopMapped (s : Simulated) : Simulated :=
  match s.mapped with
  | none => s
  | some i => s.stopDevice i

/-- The receiver of device `i` goes away. -/
def dropReceiver (i : Nat) (s : Simulated) : Simulated := (s.onLine i () fun line => ((), line.closeReceiver)).2

/-- The receiver that was not given out goes away, if there is one. -/
def dropIrq (s : Simulated) : Simulated :=
  match s.irq with
  | none => s
  | some i => { dropReceiver i s with irq := none }

/-- Maps the registers of a new device, in the place of the one mapped before. Where the system refuses to start a
worker for it, for the reason given, there is no new device and the old one stays. -/
def mapRegisters (refusal : Option String) (s : Simulated) : Except PlatformError Nat × Simulated :=
  match s.attempt .mapRegisters with
  | (.error e, s) => (.error e, s)
  | (.ok (), s) =>
    match s.config.validate, refusal with
    | .error e, _ => (.error (.config e), s)
    | .ok (), some reason => (.error (.spawn reason), s)
    | .ok (), none =>
      let s := s.stopMapped.dropIrq
      let i := s.devices.size
      (.ok i, { s with
        devices := s.devices.push (.ofConfig s.config)
        mapped := some i
        irq := some i
        log := s.log ++ [.acquired .mapRegisters] })

/-- Stops the mapped device and drops its receiver where it was not given out. -/
def unmapRegisters (s : Simulated) : Simulated :=
  { s.stopMapped.dropIrq with mapped := none }.record (.released .mapRegisters)

/-- Gives out the receiver of the mapped device. -/
def allocateIrq (s : Simulated) : Except PlatformError Nat × Simulated :=
  match s.attempt .allocateIrq with
  | (.error e, s) => (.error e, s)
  | (.ok (), s) =>
    match s.irq with
    | none => (.error .irqUnavailable, s)
    | some i => (.ok i, { s with irq := none }.record (.acquired .allocateIrq))

/-- Takes back a receiver, which goes away. -/
def freeIrq (irq : Option Nat) (s : Simulated) : Simulated :=
  (match irq with
    | none => s
    | some i => dropReceiver i s).record (.released .allocateIrq)

/-- A bus to the machine of device `i`. -/
def busTo (i : Nat) (b : Bus (Machine DenseMemory)) : Bus Simulated where
  read offset buffer s := s.onMachine i (0, buffer) (b.read offset buffer)
  write offset bytes s := s.onMachine i 0 (b.write offset bytes)
  signal s := (s.onMachine i () fun m => ((), b.signal m)).2
  length_read offset buffer s := by
    unfold onMachine
    dsimp only
    split
    · exact b.length_read offset buffer _
    · rfl

/-- The window of device `i`, whose worker runs after each access. -/
def bus (i : Nat) : Bus Simulated := busTo i Machine.bus

/-- The window of device `i`, whose worker makes its steps at other times. -/
def window (i : Nat) : Bus Simulated := busTo i Machine.window

/-- The worker of device `i` makes a step. -/
def work (i : Nat) (s : Simulated) : Simulated := (s.onMachine i () fun m => ((), m.workerStep)).2

/-- The simulated platform, on a system that refuses to start a worker if there is a reason for it. -/
def platformWith (refusal : Option String) : Platform Simulated Nat Nat where
  enableDevice s := s.acquirePlain .enableDevice
  disableDevice s := s.record (.released .enableDevice)
  requestRegion s := s.acquirePlain .requestRegion
  releaseRegion s := s.record (.released .requestRegion)
  mapRegisters := mapRegisters refusal
  unmapRegisters := unmapRegisters
  allocateIrq := allocateIrq
  freeIrq := freeIrq
  bus := bus
  poll i s := s.onLine i .disconnected Line.poll
  dropReceiver := dropReceiver

/-- The simulated platform, on a system that starts every worker. -/
def platform : Platform Simulated Nat Nat := platformWith none

end Simulated

end VirtineCleaning

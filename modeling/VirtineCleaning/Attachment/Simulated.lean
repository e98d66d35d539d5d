import VirtineCleaning.Attachment.Basic
import VirtineCleaning.Platform.Simulated

/-!
# Attached simulated devices

A device attached through the simulated platform, whose memory the host shares. Beside the host run the worker of the
device and the listener, if there is one; each of them goes on by steps.
-/

namespace VirtineCleaning

/-- A device attached through the simulated platform. -/
abbrev SimulatedDevice := Attachment Simulated Nat Nat

/-- A step that is made beside the host. -/
inductive Beside where
  /-- A step of the worker. -/
  | work
  /-- An iteration of the listener. -/
  | hear
deriving DecidableEq, Repr

namespace SimulatedDevice

/-- Applies an operation to the platform of the device. -/
def onPlatform {α : Type} (a : SimulatedDevice) (f : Simulated → α × Simulated) : α × SimulatedDevice :=
  let ⟨platform, registers, irq, listener, attached⟩ := a
  match f platform with
  | (result, platform) => (result, ⟨platform, registers, irq, listener, attached⟩)

/-- The window of the device, whose worker makes its steps at other times. -/
def window : Bus SimulatedDevice where
  read offset buffer a := onPlatform a ((Simulated.window a.registers).read offset buffer)
  write offset bytes a := onPlatform a ((Simulated.window a.registers).write offset bytes)
  signal a := (onPlatform a fun s => ((), (Simulated.window a.registers).signal s)).2
  length_read offset buffer a := (Simulated.window a.registers).length_read offset buffer a.platform

/-- What a step beside the host does. -/
def beside (a : SimulatedDevice) : Beside → SimulatedDevice
  | .work =>
    let registers := a.registers
    (onPlatform a fun s => ((), s.work registers)).2
  | .hear => a.hear Simulated.platform 1

/-- What is told of the device that was attached; `absent` where it is not there. -/
def told {α : Type} (a : SimulatedDevice) (absent : α) (f : Device → α) : α :=
  (a.platform.devices[a.registers]?.map f).getD absent

/-- Drains a receiver, and answers how much was pending. -/
def drain (irq : Nat) (a : SimulatedDevice) : Nat × SimulatedDevice :=
  onPlatform a fun s =>
    match s.onLine irq [] Line.drain with
    | (drained, s) => (drained.length, s)

/-- A receiver goes away. -/
def dropReceiver (irq : Nat) (a : SimulatedDevice) : SimulatedDevice :=
  (onPlatform a fun s => ((), s.dropReceiver irq)).2

/-- Ends the attachment. -/
def detach (a : SimulatedDevice) : SimulatedDevice := Attachment.detach Simulated.platform a

end SimulatedDevice

end VirtineCleaning

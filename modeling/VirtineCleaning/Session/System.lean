import VirtineCleaning.Attachment.Simulated
import VirtineCleaning.Config.Resources

/-!
# Systems

A session is three threads, and the system decides how they run: before each access of the host, and wherever else the
host takes its time, the worker and the listener make steps of their own. The system also decides how long the host may
wait, and whether there are the memory and the threads that it asks for.
-/

namespace VirtineCleaning.Session

/-- What a session meets with. -/
structure System where
  /-- There are fewer bytes than this for one program. -/
  memory : Nat
  /-- Why no thread is started for a worker, if none is. -/
  workerRefusal : Option String := none
  /-- Why no thread is started for a listener, if none is. -/
  listenerRefusal : Option String := none
  /-- The steps that are made beside the host at each moment that it comes to, with the device as it is then. -/
  course : (moment : Nat) → SimulatedDevice → List Beside
  /-- How often the host finds nothing to reclaim in a round before its time is up. -/
  patience : (round : Nat) → Nat

/-- The device of a session, and the number of moments that the host has come to. -/
structure Scene where
  device : SimulatedDevice
  moment : Nat := 0

namespace System

/-- A system on which the worker comes to rest at every moment, and the listener hears everything that is pending. -/
def usual : System where
  memory := 0x800000000
  course _ a :=
    List.replicate (SimulatedDevice.told a 0 Device.workLeft) .work ++
      List.replicate (SimulatedDevice.told a 0 fun d => d.line.pending.length + d.ready.occupied) .hear
  patience _ := 0

/-- A moment passes. -/
def pause (y : System) : Scene → Scene
  | ⟨device, moment⟩ =>
    let steps := y.course moment device
    ⟨steps.foldl SimulatedDevice.beside device, moment + 1⟩

/-- The window of the device; a moment passes before each access. -/
def bus (y : System) : Bus Scene :=
  (SimulatedDevice.window.focus Scene.device fun device scene => { scene with device }).preceded y.pause

end System

end VirtineCleaning.Session

import VirtineCleaning.Config.Basic
import VirtineCleaning.Device.Worker
import VirtineCleaning.Bus

/-!
# The coprocessor

A coprocessor is a device whose worker runs: after every access it works until it has nothing left to do. Stopping it
ends the worker; the window stays, but nothing is cleaned any more.
-/

namespace VirtineCleaning

/-- A device made from a configuration, whose doorbell has not been rung. -/
def Device.ofConfig (c : Config) : Device := .initial c.batchFactor c.notificationCapacity.toNat

namespace Machine

variable {μ : Type}

/-- Makes a device over a memory, if the configuration is valid. -/
def start (c : Config) (memory : μ) : Except ConfigError (Machine μ) :=
  c.validate.map fun () => ⟨.ofConfig c, memory⟩

/-- The window of a machine whose worker does not run. -/
def window : Bus (Machine μ) := Device.bus.focus (·.device) fun device m => { m with device }

variable [VirtineMemory μ]

/-- The window of a machine whose worker runs after each access. -/
def bus : Bus (Machine μ) := window.andThen settle

/-- Stops the worker, which gives up the notifier and ends. -/
def stop (m : Machine μ) : Machine μ := (m.mapDevice Device.requestStop).settle

end Machine

end VirtineCleaning

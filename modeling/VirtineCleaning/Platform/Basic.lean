import VirtineCleaning.Config.Basic
import VirtineCleaning.Notification
import VirtineCleaning.Bus

/-!
# Platforms

A host platform supplies the four resources that a device needs: the device itself, its register region, the mapping
of its registers, and its interrupt. They are acquired in the order of `Stage.order`, and each can fail.
-/

namespace VirtineCleaning

/-- One step of acquiring what a device needs. -/
inductive Stage where
  | enableDevice
  | requestRegion
  | mapRegisters
  | allocateIrq
deriving DecidableEq, Repr

namespace Stage

/-- The order of acquisition; release runs the other way. -/
def order : List Stage := [.enableDevice, .requestRegion, .mapRegisters, .allocateIrq]

/-- A stage in words. -/
def text : Stage → String
  | .enableDevice => "enable device"
  | .requestRegion => "request register region"
  | .mapRegisters => "map registers"
  | .allocateIrq => "allocate interrupt"

end Stage

/-- Why a stage was not acquired. -/
inductive PlatformError where
  /-- The stage was made to fail. -/
  | injected (stage : Stage)
  | irqUnavailable
  | config (error : ConfigError)
  /-- The system started no worker for the device. -/
  | spawn (reason : String)
deriving DecidableEq, Repr

namespace PlatformError

/-- The wording of a failed acquisition. -/
def message : PlatformError → String
  | .injected stage => stage.text ++ " failed (injected fault)"
  | .irqUnavailable => "no interrupt path: registers are not mapped"
  | .config error => error.message
  | .spawn _ => "failed to spawn coprocessor worker thread"

/-- The wording with what lies behind the failure. -/
def fullMessage (e : PlatformError) : String :=
  match e with
  | .spawn reason => e.message ++ ": " ++ reason
  | _ => e.message

end PlatformError

/-- A host platform with states `σ`, handles `ρ` of mapped registers and handles `ι` of notification receivers. -/
structure Platform (σ ρ ι : Type) where
  enableDevice : σ → Except PlatformError Unit × σ
  disableDevice : σ → σ
  requestRegion : σ → Except PlatformError Unit × σ
  releaseRegion : σ → σ
  mapRegisters : σ → Except PlatformError ρ × σ
  /-- The worker of the device has ended when this is done. -/
  unmapRegisters : σ → σ
  allocateIrq : σ → Except PlatformError ι × σ
  /-- Takes back the receiver, if its holder still has it. -/
  freeIrq : Option ι → σ → σ
  /-- Access through mapped registers. -/
  bus : ρ → Bus σ
  /-- Waits on a receiver for a bounded time. -/
  poll : ι → σ → Receipt × σ
  /-- The receiver goes away. -/
  dropReceiver : ι → σ → σ

/-- Releases what was acquired at a stage; only the interrupt takes its receiver back. -/
def Platform.release {σ ρ ι : Type} (p : Platform σ ρ ι) (stage : Stage) (irq : Option ι) (s : σ) : σ :=
  match stage with
  | .enableDevice => p.disableDevice s
  | .requestRegion => p.releaseRegion s
  | .mapRegisters => p.unmapRegisters s
  | .allocateIrq => p.freeIrq irq s

end VirtineCleaning

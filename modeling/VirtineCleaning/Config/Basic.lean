import VirtineCleaning.Word

/-!
# Configuration

What a device is made with. Every value has a default, and a configuration is checked before a device is made.
-/

namespace VirtineCleaning

/-- The parameters of a device. -/
structure Config where
  /-- The first value of the batch factor register. -/
  batchFactor : Word := 1
  /-- The notifications that may be pending before further ones are coalesced. -/
  notificationCapacity : Word := 64
  workerThreadName : String := "virtine-coproc"
  /-- The bytes of virtine memory. -/
  memorySize : Word := 0x1000000
deriving DecidableEq, Repr

/-- The first thing that is wrong with a configuration. -/
inductive ConfigError where
  | notificationCapacity
  | workerThreadName
  | memorySize
deriving DecidableEq, Repr

/-- The wording of a refused configuration. -/
def ConfigError.message (e : ConfigError) : String :=
  "invalid configuration: " ++
    match e with
    | .notificationCapacity => "notification_capacity must be greater than zero"
    | .workerThreadName => "worker_thread_name must not be empty"
    | .memorySize => "memory_size must be greater than zero"

namespace Config

/-- Checks the capacity, then the name, then the size of memory. -/
def validate (c : Config) : Except ConfigError Unit :=
  if c.notificationCapacity = 0 then .error .notificationCapacity
  else if c.workerThreadName.isEmpty then .error .workerThreadName
  else if c.memorySize = 0 then .error .memorySize
  else .ok ()

/-- Values given by the user in person, which win over those of a file. -/
structure Overrides where
  batchFactor : Option Word := none
  memorySize : Option Word := none
deriving DecidableEq, Repr

/-- The configuration with the overrides in place. -/
def override (c : Config) (o : Overrides) : Config :=
  { c with batchFactor := o.batchFactor.getD c.batchFactor, memorySize := o.memorySize.getD c.memorySize }

end Config

end VirtineCleaning

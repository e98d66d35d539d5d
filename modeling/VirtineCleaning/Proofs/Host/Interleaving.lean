import VirtineCleaning.Coprocessor
import VirtineCleaning.Host.Basic
import VirtineCleaning.Proofs.Device.History

/-!
# A host whose accesses the worker falls between

Calls of a host are sequences of accesses, and between any two of them the worker may make steps, and other callers may make the
accesses that take no lock. A schedule says what happens before each access. A chronicle is a machine with the history of its run
and the moments it passes through, and an exchange is a chronicle with the calls made so far and their replies.
-/

namespace VirtineCleaning

/-! ## Schedules -/

/-- The same bus, before each access of which the next batch of a schedule takes its course. -/
def Bus.interleaved {σ β : Type} (b : Bus σ) (step : σ → β → σ) : Bus (σ × List (List β)) where
  read offset buffer := fun (s, schedule) =>
    match b.read offset buffer ((schedule.headD []).foldl step s) with
    | (result, s) => (result, (s, schedule.tail))
  write offset bytes := fun (s, schedule) =>
    match b.write offset bytes ((schedule.headD []).foldl step s) with
    | (count, s) => (count, (s, schedule.tail))
  signal := fun (s, schedule) => (b.signal ((schedule.headD []).foldl step s), schedule.tail)
  length_read offset buffer := fun (s, schedule) => b.length_read offset buffer ((schedule.headD []).foldl step s)

/-- What may happen between two accesses of a call: a step of the worker, or an access that takes no lock. -/
inductive Background where
  | work
  | signal
  | setBatchFactor (value : Word)
  /-- A look at a register as a status makes it; none looks at `completeHead`. -/
  | look (register : Register) (h : register ≠ .completeHead)
deriving DecidableEq

/-- The action that happens. -/
def Background.action : Background → Action
  | .work => .work
  | .signal => .signal
  | .setBatchFactor value => .write Register.batchFactor.address value.bytes
  | .look register _ => .read register.address register.width

/-- What happens before each access of a call, from the first on; batches beyond the last access are left over. -/
abbrev Schedule := List (List Background)

/-! ## Chronicles -/

/-- A device at one moment, and what led to it. -/
structure Moment where
  device : Device
  history : History

/-- A machine with the history of its run and the moments it has passed through. -/
structure Chronicle (μ : Type) where
  machine : Machine μ
  history : History := []
  passed : List Moment := []

namespace Machine

variable {μ : Type} [VirtineMemory μ]

/-- A read of the window and the action of reading leave the same machine. -/
theorem window_read (offset : Word) (buffer : List UInt8) (m : Machine μ) :
    (window.read offset buffer m).2 = m.apply (.read offset buffer.length) := by
  simp only [window, Bus.focus, Device.bus, apply, mapDevice]
  split <;> simp [*]

/-- A write to the window and the action of writing leave the same machine. -/
theorem window_write (offset : Word) (bytes : List UInt8) (m : Machine μ) :
    (window.write offset bytes m).2 = m.apply (.write offset bytes) := rfl

end Machine

namespace Chronicle

variable {μ : Type} [VirtineMemory μ]

/-- The present moment. -/
def now (c : Chronicle μ) : Moment := ⟨c.machine.device, c.history⟩

/-- The chronicle after an action. -/
def act (c : Chronicle μ) (a : Action) : Chronicle μ where
  machine := c.machine.apply a
  history := c.history ++ c.machine.events a
  passed := c.passed ++ [⟨(c.machine.apply a).device, c.history ++ c.machine.events a⟩]

/-- The chronicle after what happens in the background. -/
def step (c : Chronicle μ) (b : Background) : Chronicle μ := c.act b.action

/-- The window of the machine, accesses to which are chronicled (`window_read`, `window_write`). -/
def bus : Bus (Chronicle μ) where
  read offset buffer c := ((Machine.window.read offset buffer c.machine).1, c.act (.read offset buffer.length))
  write offset bytes c := ((Machine.window.write offset bytes c.machine).1, c.act (.write offset bytes))
  signal c := c.act .signal
  length_read offset buffer c := Machine.window.length_read offset buffer c.machine

/-- The same window when it is shared with the worker and with other callers. -/
def shared : Bus (Chronicle μ × Schedule) := bus.interleaved step

end Chronicle

/-! ## Calls -/

/-- A call of the host. -/
inductive Call where
  | submit (address : Word)
  | reclaim
  | ringDoorbell
  | command (c : Command)
  | status
deriving DecidableEq

/-- What a call answers. -/
inductive Reply where
  | submitted (result : Except Host.SubmitError Unit)
  | reclaimed (address : Option Word)
  | rung
  | answered (value : Word)
  | shown (status : Host.RegisterStatus)

namespace Call

/-- The call neither submits nor reclaims. -/
def isQuiet : Call → Bool
  | .submit _ | .reclaim => false
  | _ => true

/-- Carries out a call over a bus. -/
def carryOut {σ : Type} (bus : Bus σ) : Call → StateM σ Reply
  | .submit address => do return .submitted (← Host.submit bus address)
  | .reclaim => do return .reclaimed (← Host.reclaim bus)
  | .ringDoorbell => do
    Host.ringDoorbell bus
    return .rung
  | .command c => do return .answered (← Host.command bus c)
  | .status => do return .shown (← Host.status bus)

end Call

/-- The calls made, with their replies. -/
abbrev CallLog := List (Call × Reply)

namespace CallLog

/-- The words that were submitted and not refused, in the order of the calls. -/
def submitted (log : CallLog) : List Word :=
  log.filterMap fun
    | (.submit address, .submitted (.ok ())) => some address
    | _ => none

/-- The words that were refused for want of room, in the order of the calls. -/
def refused (log : CallLog) : List Word :=
  log.filterMap fun
    | (.submit address, .submitted (.error .queueFull)) => some address
    | _ => none

/-- The words that were reclaimed, in the order of the calls. -/
def returned (log : CallLog) : List Word :=
  log.filterMap fun
    | (.reclaim, .reclaimed address) => address
    | _ => none

end CallLog

/-- Carries out a call with what the schedule puts between its accesses; `passed` then holds the moments since the call began. -/
def Chronicle.perform {μ : Type} [VirtineMemory μ] (c : Chronicle μ) (call : Call) (schedule : Schedule) :
    Reply × Chronicle μ :=
  match call.carryOut shared ({ c with passed := [c.now] }, schedule) with
  | (reply, (c, _)) => (reply, c)

/-- One turn of an exchange: something between two calls, or a call with its schedule. -/
inductive Turn where
  | background (b : Background)
  | call (call : Call) (schedule : Schedule)

/-- A machine in use by a host. -/
structure Exchange (μ : Type) where
  chronicle : Chronicle μ
  log : CallLog := []

namespace Exchange

variable {μ : Type}

/-- A machine whose device is new, and that no call was made to. -/
def fresh (memory : μ) (batchFactor : Word) (line : Line) : Exchange μ :=
  { chronicle := { machine := Machine.fresh memory batchFactor line } }

variable [VirtineMemory μ]

/-- The exchange after one more turn. -/
def take (e : Exchange μ) : Turn → Exchange μ
  | .background b => { e with chronicle := e.chronicle.step b }
  | .call call schedule =>
    match e.chronicle.perform call schedule with
    | (reply, chronicle) => { chronicle, log := e.log ++ [(call, reply)] }

/-- The exchange after turns, one after the other. -/
def run (e : Exchange μ) (turns : List Turn) : Exchange μ := turns.foldl take e

end Exchange

end VirtineCleaning

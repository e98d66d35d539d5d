import VirtineCleaning.Notification
import VirtineCleaning.Register.Table
import VirtineCleaning.Ring.Basic
import VirtineCleaning.Word

/-!
# The device

The device cleans virtines: it takes the address of a dirty virtine off the Ready Queue, has the snapshot copied over
it, and posts the address to the Complete Queue. This module holds the state of a device and the operations that touch
no memory: ringing the doorbell, submitting and reclaiming addresses, and opening and closing a pass.
-/

namespace VirtineCleaning

/-- The address of a virtine's memory; zero is reserved, since it reads as "queue empty". -/
structure Address where
  word : Word
  word_ne_zero : word ≠ 0
deriving DecidableEq

namespace Address

/-- The address that a word stands for, if any. -/
def ofWord? (w : Word) : Option Address :=
  if h : w = 0 then none else some ⟨w, h⟩

/-- The word of an optional address, zero where it is absent. -/
def wordOrZero : Option Address → Word
  | none => 0
  | some a => a.word

/-- An address as it is shown to users. -/
def display (a : Address) : String := a.word.hex

/-- An address as it is shown in diagnostics. -/
def describe (a : Address) : String := s!"VirtineAddr({a.word.hex})"

/-- Optional addresses by size, an absent one before all others. -/
def optionLE (a b : Option Address) : Bool := wordOrZero a ≤ wordOrZero b

end Address

instance : HasSlots maxVirtines := ⟨by decide⟩

/-- A queue of virtine addresses. -/
abbrev VirtineQueue := Ring Address maxVirtines

/-- The clean image that is copied over each virtine. -/
structure Snapshot where
  address : Word := 0
  size : Word := 0
deriving DecidableEq, Repr

/-- What the worker of a device is doing. -/
inductive Phase where
  | waitingForDoorbell
  | processing
  | stopping
  | terminated
deriving DecidableEq, Repr

/-- What a device has counted since it was made. -/
structure Stats where
  submitted : Nat := 0
  cleaned : Nat := 0
  reclaimed : Nat := 0
  notifications : Nat := 0
  notificationsCoalesced : Nat := 0
  rejectedFull : Nat := 0
  rejectedZero : Nat := 0
  copyFailures : Nat := 0
  stalls : Nat := 0
  passes : Nat := 0
deriving DecidableEq, Repr

/-- The state of a device, apart from the memory it cleans. -/
structure Device where
  ready : VirtineQueue := .empty
  complete : VirtineQueue := .empty
  doorbell : Bool := false
  /-- A pass is running. -/
  isProcessing : Bool := false
  batchFactor : Word
  /-- Virtines cleaned since the last notification. -/
  cleanedCount : Nat := 0
  snapshot : Snapshot := {}
  /-- A stop was requested. -/
  isStopping : Bool := false
  /-- A pass ended because the Complete Queue was full. -/
  isStalled : Bool := false
  phase : Phase := .waitingForDoorbell
  /-- The low half of a submission whose high half is still to come. -/
  stagedReadyTail : Option HalfWord := none
  /-- The low half of a snapshot address whose high half is still to come. -/
  stagedSnapshotAddress : Option HalfWord := none
  /-- The reclaimed word whose high half is still to be read. -/
  completeHeadLatch : Option Word := none
  stats : Stats := {}
  line : Line
deriving DecidableEq

/-- What of a device shows at one moment. -/
structure Status where
  phase : Phase
  doorbell : Bool
  isProcessing : Bool
  isStalled : Bool
  readyLength : Nat
  completeLength : Nat
  batchFactor : Word
  cleanedCount : Nat
  snapshot : Snapshot
  stats : Stats
deriving DecidableEq, Repr

namespace Device

/-- A fresh device with empty queues, whose notifications go to a line of the given capacity. -/
def initial (batchFactor : Word) (capacity : Nat) : Device := { batchFactor, line := { capacity } }

/-- The queue of a given name. -/
def queue (d : Device) : QueueName → VirtineQueue
  | .ready => d.ready
  | .complete => d.complete

/-- The counters, with the coalesced notifications as the notifier counts them while it exists. -/
def counters (d : Device) : Stats :=
  match d.line.coalesced? with
  | some n => { d.stats with notificationsCoalesced := n }
  | none => d.stats

/-- What of the device shows now. -/
def status (d : Device) : Status where
  phase := d.phase
  doorbell := d.doorbell
  isProcessing := d.isProcessing
  isStalled := d.isStalled
  readyLength := d.ready.length
  completeLength := d.complete.length
  batchFactor := d.batchFactor
  cleanedCount := d.cleanedCount
  snapshot := d.snapshot
  stats := d.counters

/-- Rings the doorbell. A running pass absorbs the ring, since it looks at the Ready Queue again before it ends. -/
def ringDoorbell (d : Device) : Device :=
  if d.isProcessing then d else { d with doorbell := true }

/-- Asks the worker to stop before the next virtine. -/
def requestStop (d : Device) : Device := { d with isStopping := true }

/-- The number of cleaned virtines that complete a batch; a factor of zero acts as one. -/
def batchSize (d : Device) : Nat := max 1 d.batchFactor.toNat

/-- Submits a word to the Ready Queue; zero, and any word while the queue is full, is rejected and counted. -/
def enqueue (d : Device) (w : Word) : Device :=
  match Address.ofWord? w with
  | none => { d with stats := { d.stats with rejectedZero := d.stats.rejectedZero + 1 } }
  | some a =>
    match d.ready.insert a with
    | .ok (_, ready) => { d with ready, stats := { d.stats with submitted := d.stats.submitted + 1 } }
    | .error _ => { d with stats := { d.stats with rejectedFull := d.stats.rejectedFull + 1 } }

/-- Takes the oldest address off the Complete Queue, zero when it is empty. A stalled device is rung again. -/
def dequeue (d : Device) : Word × Device :=
  match d.complete.pop with
  | none => (0, d)
  | some (a, complete) =>
    (a.word, { d with
      complete
      stats := { d.stats with reclaimed := d.stats.reclaimed + 1 }
      doorbell := d.doorbell || d.isStalled
      isStalled := false })

/-- Opens a pass, which takes the doorbell and clears a stall. -/
def beginPass (d : Device) : Device :=
  { d with
    isProcessing := true
    doorbell := false
    isStalled := false
    stats := { d.stats with passes := d.stats.passes + 1 } }

/-- Closes a pass. -/
def endPass (d : Device) : Device := { d with isProcessing := false }

/-- Notes that the Complete Queue is full; only the first note of a stall is counted. -/
def stall (d : Device) : Device :=
  if d.isStalled then d
  else { d with isStalled := true, stats := { d.stats with stalls := d.stats.stalls + 1 } }

/-- Raises a notification of every virtine cleaned since the last one. -/
def notify (d : Device) : Device :=
  { d with
    cleanedCount := 0
    stats := { d.stats with notifications := d.stats.notifications + 1 }
    line := match d.line.raise? d.cleanedCount with
      | some (_, line) => line
      | none => d.line }

/-- Raises a notification once a batch is complete. -/
def notifyIfComplete (d : Device) : Device :=
  if d.batchSize ≤ d.cleanedCount then d.notify else d

/-- The Complete Queue with one more address, where it has room. -/
def completeWith (d : Device) (a : Address) : VirtineQueue :=
  match d.complete.insert a with
  | .ok (_, complete) => complete
  | .error _ => d.complete

/-- Posts a cleaned virtine to the Complete Queue. -/
def post (d : Device) (a : Address) : Device :=
  { d with
    complete := d.completeWith a
    cleanedCount := d.cleanedCount + 1
    stats := { d.stats with cleaned := d.stats.cleaned + 1 } }

/-- Posts a cleaned virtine and raises a notification once its batch is complete. -/
def finish (d : Device) (a : Address) : Device := (d.post a).notifyIfComplete

/-- The device after addresses have left its Ready Queue. -/
def withReady (d : Device) (ready : VirtineQueue) : Device := { d with ready }

/-- Notes that the snapshot could not be copied over a virtine, which is lost. -/
def fail (d : Device) : Device :=
  { d with stats := { d.stats with copyFailures := d.stats.copyFailures + 1 } }

/-- Gives up the notifier, and keeps what it counted. -/
def closeNotifications (d : Device) : Device := { d with stats := d.counters, line := d.line.closeNotifier }

end Device

end VirtineCleaning

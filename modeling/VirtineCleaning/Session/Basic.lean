import VirtineCleaning.Host.Basic
import VirtineCleaning.Session.Layout
import VirtineCleaning.Session.System

/-!
# Sessions

A session attaches a simulated device, gives it virtines with dirty memory in rounds of at most one queue's worth,
reclaims them, and checks that each of them holds the snapshot afterwards. It runs on a system: whenever the host comes
to a moment, the worker and the listener may make steps.
-/

namespace VirtineCleaning.Session

/-- Why a session failed. -/
inductive Failure where
  | layout (error : LayoutError)
  | platform (error : PlatformError)
  /-- The program ended, since it could not have what a device takes. -/
  | breakdown (breakdown : Config.Breakdown)
  | memory (error : OutOfRange)
  | attach (error : AttachError)
  | listen (error : ListenError)
  | submit (index : Nat) (error : Host.SubmitError)
  /-- The time of a round was up before all its virtines were reclaimed. -/
  | timedOut (pending round : Nat)

/-- The wording of a failure, from the outermost cause to the innermost. -/
def Failure.message : Failure → String
  | .layout e => e.message
  | .platform e => "failed to create platform: " ++ e.message
  | .breakdown _ => "no device can be made with the configuration"
  | .memory e => "failed to prepare virtine memory: " ++ e.message
  | .attach e => "failed to attach device: " ++ e.message ++ ": " ++ e.source.fullMessage
  | .listen e => "failed to start notification listener: " ++ e.fullMessage
  | .submit index e => "failed to submit virtine " ++ toString index ++ ": " ++ e.message
  | .timedOut pending round =>
    "timed out waiting for " ++ toString pending ++ " virtine(s) in round " ++ toString round

/-- What a session did. -/
structure Summary where
  virtines : Word
  batchFactor : Word
  snapshotSize : Word
  rounds : Nat
  reclaimed : Nat
  notifications : Nat
  notificationsDelivered : Nat
  notificationsCoalesced : Nat
  copyFailures : Nat
  /-- Every virtine holds the snapshot. -/
  verified : Bool
deriving DecidableEq, Repr

/-- The image that virtines are restored from. -/
def snapshotPattern (size : Nat) : ByteArray :=
  tabulateBytes size fun i => UInt8.ofNat (i % 251) ^^^ 0xa5

/-- The byte that the memory of a used virtine is full of. -/
def dirtyByte : UInt8 := 0xdb

/-- Fills each of `count` virtines, from number `index` on, with the same bytes. -/
def fillVirtines (l : Layout) (bytes : ByteArray) : (count index : Nat) → DenseMemory → Except OutOfRange DenseMemory
  | 0, _, m => .ok m
  | count + 1, index, m =>
    match m.write (l.virtine (UInt64.ofNat index)) bytes with
    | (.error e, _) => .error e
    | (.ok (), m) => fillVirtines l bytes count (index + 1) m

/-- Puts the snapshot in its place and dirties every virtine. -/
def prepare (l : Layout) (o : Options) (m : DenseMemory) : Except OutOfRange DenseMemory :=
  match m.write 0 (snapshotPattern o.snapshotSize.toNat) with
  | (.error e, _) => .error e
  | (.ok (), m) => fillVirtines l (replicateByte o.snapshotSize.toNat dirtyByte) o.virtines.toNat 0 m

/-- Every virtine holds the snapshot. -/
def verify (l : Layout) (o : Options) (m : DenseMemory) : Bool :=
  let expected := snapshotPattern o.snapshotSize.toNat
  (List.range o.virtines.toNat).all fun i =>
    let start := (l.virtine (UInt64.ofNat i)).toNat
    m.data.extract start (start + o.snapshotSize.toNat) == expected

/-- What the rounds of a session amount to so far. -/
structure Progress where
  rounds : Nat := 0
  reclaimed : Nat := 0
deriving DecidableEq, Repr

/-- Looks for a virtine, and looks again as often as the patience of the host lasts when there is none; what is left of
it, unless it is at an end. -/
def awaitVirtine {σ : Type} (look : StateM σ (Option Word)) : (patience : Nat) → σ → Option (Nat × σ)
  | 0, scene =>
    match look scene with
    | (some _, scene) => some (0, scene)
    | (none, _) => none
  | patience + 1, scene =>
    match look scene with
    | (some _, scene) => some (patience + 1, scene)
    | (none, scene) => awaitVirtine look patience scene

section

variable (y : System)

/-- Submits `count` virtines, from number `index` on. -/
def submitVirtines (l : Layout) : (count index : Nat) → Scene → Except Failure Scene
  | 0, _, scene => .ok scene
  | count + 1, index, scene =>
    match Host.submit y.bus (l.virtine (UInt64.ofNat index)) scene with
    | (.error e, _) => .error (.submit index e)
    | (.ok (), scene) => submitVirtines l count (index + 1) scene

/-- Reclaims `pending` virtines, each as soon as it is there. -/
def reclaimVirtines (progress : Progress) : (pending patience : Nat) → Scene → Except Failure (Progress × Scene)
  | 0, _, scene => .ok (progress, scene)
  | pending + 1, patience, scene =>
    match awaitVirtine (Host.reclaim y.bus) patience scene with
    | none => .error (.timedOut (pending + 1) progress.rounds)
    | some (patience, scene) =>
      reclaimVirtines { progress with reclaimed := progress.reclaimed + 1 } pending patience scene

/-- One round: submit `count` virtines, ring the doorbell, reclaim them. -/
def round (l : Layout) (progress : Progress) (count index : Nat) (scene : Scene) :
    Except Failure (Progress × Scene) := do
  let scene ← submitVirtines y l count index scene
  let scene := (Host.ringDoorbell y.bus scene).2
  let (progress, scene) ← reclaimVirtines y progress count (y.patience progress.rounds) scene
  return ({ progress with rounds := progress.rounds + 1 }, scene)

/-- Rounds of at most one queue's worth for the `left` virtines from number `index` on. -/
def rounds (l : Layout) (progress : Progress) (left index : Nat) (scene : Scene) :
    Except Failure (Progress × Scene) :=
  if left = 0 then .ok (progress, scene)
  else
    let count := min maxVirtines left
    match round y l progress count index scene with
    | .error e => .error e
    | .ok (progress, scene) => rounds l progress (left - count) (index + count) scene
termination_by left
decreasing_by
  have : 0 < maxVirtines := by decide
  omega

/-- A platform with a memory of zeros, if the system has what a device takes. -/
def makePlatform (c : Config) : Except Failure Simulated :=
  match c.validate, c.breakdown? y.memory with
  | .error e, _ => .error (.platform (.config e))
  | .ok (), some b => .error (.breakdown b)
  | .ok (), none => (Simulated.ofConfig c).mapError .platform

/-- A device attached over prepared memory, with a listener and the snapshot set. -/
def attachPrepared (c : Config) (o : Options) (l : Layout) : Except Failure Scene := do
  let platform ← makePlatform y c
  let ⟨config, memory, failAt, devices, mapped, irq, log⟩ := platform
  let memory ← (prepare l o memory).mapError .memory
  match Attachment.attach (Simulated.platformWith y.workerRefusal)
      ⟨config, memory, failAt, devices, mapped, irq, log⟩ with
  | .error (e, _) => throw (.attach e)
  | .ok device =>
    let ⟨device, moment⟩ := y.pause { device }
    match Attachment.listenWith Simulated.platform y.listenerRefusal device with
    | (.error e, _) => throw (.listen e)
    | (.ok (), device) => return (Host.command y.bus (.setSnapshot 0 o.snapshotSize) ⟨device, moment⟩).2

/-- Takes the receiver from the device, drains it and lets it go; answers how much was pending. -/
def drainIrq (scene : Scene) : Nat × Scene :=
  let ⟨device, moment⟩ := scene
  match device.takeIrq with
  | (none, device) => (0, ⟨device, moment⟩)
  | (some irq, device) =>
    let (drained, device) := SimulatedDevice.drain irq device
    let ⟨device, moment⟩ := y.pause ⟨device, moment⟩
    (drained, ⟨SimulatedDevice.dropReceiver irq device, moment⟩)

/-- What is left to do once every round is over, and what there is to say then: the listener is stopped, its receiver is
drained, the memory is checked, and the device is detached. -/
def conclude (c : Config) (o : Options) (l : Layout) (progress : Progress) (scene : Scene) : Summary × SimulatedDevice :=
  let ⟨device, moment⟩ := y.pause scene
  let delivered := (device.listener.map (·.heard.size)).getD 0
  let ⟨device, moment⟩ := y.pause ⟨device.unlisten, moment⟩
  let (drained, ⟨device, moment⟩) := drainIrq y ⟨device, moment⟩
  let ⟨device, moment⟩ := y.pause ⟨device, moment⟩
  let stats := (device.platform.device?.map Device.counters).getD {}
  let ⟨device, _⟩ := y.pause ⟨device, moment⟩
  let verified := verify l o device.platform.memory
  ({ virtines := o.virtines
     batchFactor := c.batchFactor
     snapshotSize := o.snapshotSize
     rounds := progress.rounds
     reclaimed := progress.reclaimed
     notifications := stats.notifications
     notificationsDelivered := delivered + drained
     notificationsCoalesced := stats.notificationsCoalesced
     copyFailures := stats.copyFailures
     verified }, SimulatedDevice.detach device)

/-- A whole session, with the device that it leaves. -/
def run (c : Config) (o : Options) : Except Failure (Summary × SimulatedDevice) := do
  let l ← (Layout.of c o).mapError .layout
  let scene ← attachPrepared y c o l
  let (progress, scene) ← rounds y l {} o.virtines.toNat 0 scene
  return conclude y c o l progress scene

end

/-- What a freshly attached device says of itself. -/
structure Identity where
  maxVirtines : Word
  batchFactor : Word
  readyTail : Word
  completeTail : Word
  doorbell : Bool
  isProcessing : Bool
deriving DecidableEq, Repr

/-- Attaches a device and reads the registers that identify it. -/
def probe (y : System) (c : Config) : Except Failure Identity := do
  let platform ← makePlatform y c
  match Attachment.attach (Simulated.platformWith y.workerRefusal) platform with
  | .error (e, _) => throw (.attach e)
  | .ok device =>
    let (maxVirtines, scene) := Host.command y.bus .getMaxNumVirtines { device }
    let (status, _) := Host.status y.bus scene
    return {
      maxVirtines
      batchFactor := status.batchFactor
      readyTail := status.readyTail
      completeTail := status.completeTail
      doorbell := status.doorbell
      isProcessing := status.isProcessing }

end VirtineCleaning.Session

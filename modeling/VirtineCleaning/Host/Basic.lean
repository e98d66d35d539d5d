import VirtineCleaning.Host.Command
import VirtineCleaning.Bus

/-!
# The host's side of the window

Everything a host does, it does through a bus: transfers of byte ranges, which are cut into accesses of four bytes,
and commands, submissions and reclaims, which are fixed sequences of accesses. The widths and the order of these
accesses are part of what a device may rely on, since some registers act when one half of them is touched.
-/

namespace VirtineCleaning.Host

variable {σ : Type}

/-- The whole words of a transfer that fit into the window; `none` where nothing may be transferred. -/
def transferWords (offset : Word) (length : Nat) : Option Nat :=
  if offset.toNat % accessAlign ≠ 0 ∨ windowSize ≤ offset.toNat then none
  else some (min length (windowSize - offset.toNat) / accessAlign)

/-- Fills `words` words of a buffer, from the first on; a word that is not moved whole ends the transfer. -/
def readWords (bus : Bus σ) (offset : Word) : (words : Nat) → (buffer : List UInt8) → StateM σ (Nat × List UInt8)
  | 0, buffer => return (0, buffer)
  | words + 1, buffer => do
    let (count, bytes) ← bus.read offset (buffer.take accessAlign)
    let rest := buffer.drop accessAlign
    if count = accessAlign then
      let (done, rest) ← readWords bus (offset + 4) words rest
      return (accessAlign + done, bytes ++ rest)
    else return (0, bytes ++ rest)

/-- Writes `words` words, from the first on; a word that is not moved whole ends the transfer. -/
def writeWords (bus : Bus σ) (offset : Word) : (words : Nat) → (bytes : List UInt8) → StateM σ Nat
  | 0, _ => return 0
  | words + 1, bytes => do
    let count ← bus.write offset (bytes.take accessAlign)
    if count = accessAlign then
      let done ← writeWords bus (offset + 4) words (bytes.drop accessAlign)
      return accessAlign + done
    else return 0

/-- Reads a range of the window into a buffer and answers the bytes moved and the buffer afterwards. -/
def readAt (bus : Bus σ) (offset : Word) (buffer : List UInt8) : StateM σ (Nat × List UInt8) :=
  match transferWords offset buffer.length with
  | none => return (0, buffer)
  | some words => readWords bus offset words buffer

/-- Writes a range of the window and answers the bytes moved. -/
def writeAt (bus : Bus σ) (offset : Word) (bytes : List UInt8) : StateM σ Nat :=
  match transferWords offset bytes.length with
  | none => return 0
  | some words => writeWords bus offset words bytes

/-- Carries out a command. The size of a snapshot is set before its address, so that the address takes effect last. -/
def command (bus : Bus σ) : Command → StateM σ Word
  | .modifyBatchFactor value => do
    let _ ← bus.writeWord Register.batchFactor.address value
    return 0
  | .getMaxNumVirtines => bus.readSplit Register.maxVirtines.address
  | .ringDoorbell => do
    modify bus.signal
    return 0
  | .setSnapshot address size => do
    let _ ← bus.writeWord Register.snapshotSize.address size
    bus.writeSplit Register.snapshotAddress.address address
    return 0

/-- Rings the doorbell. -/
def ringDoorbell (bus : Bus σ) : StateM σ Unit := do
  let _ ← command bus .ringDoorbell

/-- Carries out a request given by its number; one that is refused makes no access. -/
def request (bus : Bus σ) (number : HalfWord) (arguments : List Word) : StateM σ (Except RequestError Word) :=
  match Command.ofRequest number arguments with
  | .error e => return .error e
  | .ok c => do
    let answer ← command bus c
    return .ok answer

/-- Why a virtine was not submitted. -/
inductive SubmitError where
  | zeroAddress
  | queueFull
deriving DecidableEq, Repr

/-- The wording of a refused submission. -/
def SubmitError.message : SubmitError → String
  | .zeroAddress => "virtine address 0 is reserved"
  | .queueFull => "ready queue is full"

/-- Submits a dirty virtine. A full queue is known by a tail that has not moved. -/
def submit (bus : Bus σ) (address : Word) : StateM σ (Except SubmitError Unit) :=
  if address = 0 then return .error .zeroAddress
  else do
    let before ← bus.readWord Register.readyTail.address
    bus.writeSplit Register.readyTail.address address
    let after ← bus.readWord Register.readyTail.address
    return if after = before then .error .queueFull else .ok ()

/-- Takes one clean virtine off the Complete Queue. -/
def reclaim (bus : Bus σ) : StateM σ (Option Word) := do
  let address ← bus.readSplit Register.completeHead.address
  return if address = 0 then none else some address

/-- What the registers without side effects show. -/
structure RegisterStatus where
  readyHead : Word
  readyTail : Word
  doorbell : Bool
  isProcessing : Bool
  completeTail : Word
  batchFactor : Word
  maxVirtines : Word
  snapshotSize : Word
  snapshotAddress : Word
deriving DecidableEq, Repr

/-- Reads the registers without side effects, in window order. -/
def status (bus : Bus σ) : StateM σ RegisterStatus := do
  let readyHead ← bus.readWord Register.readyHead.address
  let readyTail ← bus.readWord Register.readyTail.address
  let doorbell ← bus.readHalf Register.doorbell.address
  let isProcessing ← bus.readHalf Register.processing.address
  let completeTail ← bus.readWord Register.completeTail.address
  let batchFactor ← bus.readWord Register.batchFactor.address
  let maxVirtines ← bus.readWord Register.maxVirtines.address
  let snapshotSize ← bus.readWord Register.snapshotSize.address
  let snapshotAddress ← bus.readWord Register.snapshotAddress.address
  return {
    readyHead, readyTail, completeTail, batchFactor, maxVirtines, snapshotSize, snapshotAddress
    doorbell := doorbell != 0
    isProcessing := isProcessing != 0 }

end VirtineCleaning.Host

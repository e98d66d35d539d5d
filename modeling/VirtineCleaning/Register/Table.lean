/-!
# The register table

The window is a flat row of fields: each begins where the one before it ends. A field is one register or a whole ring
of slots. This module holds the registers, their widths and access rights, and the table in window order.
-/

namespace VirtineCleaning

/-- The number of slots of the Ready Queue, and of the Complete Queue. -/
def maxVirtines : Nat := 100

/-- The bytes of one ring slot in the window. -/
def slotWidth : Nat := 8

/-- The bytes of the register window, a whole page. -/
def windowSize : Nat := 0x1000

/-- Every access lies on a multiple of this many bytes. -/
def accessAlign : Nat := 4

/-- The fields of the window, in window order. -/
inductive Register where
  | readyHead
  | readyTail
  | doorbell
  | processing
  | completeHead
  | completeTail
  | batchFactor
  | maxVirtines
  | snapshotSize
  | snapshotAddress
  | readyRing
  | completeRing
deriving DecidableEq, Repr

/-- The two queues of the device. -/
inductive QueueName where
  | ready
  | complete
deriving DecidableEq, Repr

/-- One thing that an access to a field may do. -/
inductive Right where
  | read
  | write
  | sideEffect
deriving DecidableEq, Repr

/-- What accesses to a field may do; `sideEffect` marks fields whose accesses change more than themselves. -/
structure Access where
  readable : Bool
  writable : Bool
  sideEffect : Bool
deriving DecidableEq, Repr

namespace Access

/-- Readable only. -/
def readOnly : Access := ⟨true, false, false⟩

/-- Readable and writable. -/
def readWrite : Access := ⟨true, true, false⟩

/-- The same rights, with a side effect. -/
def effectful (a : Access) : Access := { a with sideEffect := true }

/-- The rights as a number, one bit each. -/
def bits (a : Access) : Nat :=
  a.readable.toNat + 2 * a.writable.toNat + 4 * a.sideEffect.toNat

/-- The rights held, in the order of their bits. -/
def rights (a : Access) : List Right :=
  [(a.readable, .read), (a.writable, .write), (a.sideEffect, .sideEffect)].filterMap
    fun (held, right) => if held then some right else none

end Access

namespace Register

/-- Every field, in window order. -/
def all : List Register :=
  [.readyHead, .readyTail, .doorbell, .processing, .completeHead, .completeTail, .batchFactor, .maxVirtines,
    .snapshotSize, .snapshotAddress, .readyRing, .completeRing]

/-- The name of a field in the register map. -/
def name : Register → String
  | .readyHead => "RQ_HEAD"
  | .readyTail => "RQ_TAIL"
  | .doorbell => "DOORBELL"
  | .processing => "IS_PROCESSING"
  | .completeHead => "CQ_HEAD"
  | .completeTail => "CQ_TAIL"
  | .batchFactor => "BATCH_FACTOR"
  | .maxVirtines => "MAX_VIRTINES"
  | .snapshotSize => "SNAPSHOT_SIZE"
  | .snapshotAddress => "SNAPSHOT_ADDR"
  | .readyRing => "RQ_RING"
  | .completeRing => "CQ_RING"

/-- The bytes of a field. -/
def width : Register → Nat
  | .doorbell | .processing => 4
  | .readyRing | .completeRing => slotWidth * VirtineCleaning.maxVirtines
  | _ => 8

/-- What accesses to a field may do. -/
def access : Register → Access
  | .readyTail | .doorbell => Access.readWrite.effectful
  | .completeHead => Access.readOnly.effectful
  | .batchFactor | .snapshotSize | .snapshotAddress => .readWrite
  | _ => .readOnly

/-- The queue whose slots a field shows, where it is a ring. -/
def ring? : Register → Option QueueName
  | .readyRing => some .ready
  | .completeRing => some .complete
  | _ => none

/-- Where a field begins: after all the fields that come before it. -/
def offset (r : Register) : Nat := (all.takeWhile (· != r)).foldl (fun n r => n + r.width) 0

/-- The offset of a field as the word that addresses it. -/
def address (r : Register) : UInt64 := UInt64.ofNat r.offset

end Register

/-- A row of the register table. -/
structure Field where
  register : Register
  offset : Nat
  width : Nat
deriving DecidableEq, Repr

namespace Field

/-- Where the next field begins. -/
def stop (f : Field) : Nat := f.offset + f.width

/-- The field covers the byte at offset `n`. -/
def covers (f : Field) (n : Nat) : Bool := f.offset ≤ n && n < f.stop

/-- Rows for `rs`, laid out one after the other from `start`. -/
def layOut (start : Nat) : List Register → List Field
  | [] => []
  | r :: rs => ⟨r, start, r.width⟩ :: layOut (start + r.width) rs

/-- The register table in window order. -/
def table : List Field := layOut 0 Register.all

/-- The row of each register begins at its offset. -/
theorem table_eq : table = Register.all.map fun r => ⟨r, r.offset, r.width⟩ := by decide

end Field

end VirtineCleaning

import VirtineCleaning.Device.Basic

/-!
# Diagnostic text of a device

A record is written as its name and its fields between braces, an optional value with its constructor, and numbers in
decimal. The fields of a device that are left out are marked by two dots.
-/

namespace VirtineCleaning

/-- A record with a name and texts for its fields; an `openEnded` record has fields that are not shown. -/
def describeRecord (name : String) (fields : List (String × String)) (openEnded : Bool) : String :=
  let shown := fields.map fun (field, text) => field ++ ": " ++ text
  let items := if openEnded then shown ++ [".."] else shown
  name ++ " \x7b " ++ ", ".intercalate items ++ " \x7d"

/-- An optional value with its constructor. -/
def describeOption : Option String → String
  | none => "None"
  | some text => "Some(" ++ text ++ ")"

/-- A truth value in words. -/
def describeBool (b : Bool) : String := if b then "true" else "false"

/-- The name of a phase. -/
def Phase.describe : Phase → String
  | .waitingForDoorbell => "WaitingForDoorbell"
  | .processing => "Processing"
  | .stopping => "Stopping"
  | .terminated => "Terminated"

/-- A snapshot by its address and size. -/
def Snapshot.describe (s : Snapshot) : String :=
  describeRecord "Snapshot" [("address", toString s.address.toNat), ("size", toString s.size.toNat)] false

/-- The counters in the order in which they are kept. -/
def Stats.describe (s : Stats) : String :=
  describeRecord "DeviceStats"
    [("submitted", toString s.submitted), ("cleaned", toString s.cleaned), ("reclaimed", toString s.reclaimed),
      ("notifications", toString s.notifications), ("notifications_coalesced", toString s.notificationsCoalesced),
      ("rejected_full", toString s.rejectedFull), ("rejected_zero", toString s.rejectedZero),
      ("copy_failures", toString s.copyFailures), ("stalls", toString s.stalls), ("passes", toString s.passes)]
    false

/-- A status with its snapshot and counters inside. -/
def Status.describe (s : Status) : String :=
  describeRecord "DeviceStatus"
    [("phase", s.phase.describe), ("doorbell", describeBool s.doorbell),
      ("is_processing", describeBool s.isProcessing), ("stalled", describeBool s.isStalled),
      ("ready_len", toString s.readyLength), ("complete_len", toString s.completeLength),
      ("batch_factor", toString s.batchFactor.toNat), ("cleaned_count", toString s.cleanedCount),
      ("snapshot", s.snapshot.describe), ("stats", s.stats.describe)]
    false

/-- The diagnostic text of a device: its status and the words of its unfinished accesses. -/
def Device.describe (d : Device) : String :=
  describeRecord "DeviceState"
    [("status", d.status.describe),
      ("staged_rq_tail", describeOption (d.stagedReadyTail.map fun h => toString h.toNat)),
      ("staged_snapshot_addr", describeOption (d.stagedSnapshotAddress.map fun h => toString h.toNat)),
      ("cq_head_latch", describeOption (d.completeHeadLatch.map fun w => toString w.toNat))]
    true

end VirtineCleaning

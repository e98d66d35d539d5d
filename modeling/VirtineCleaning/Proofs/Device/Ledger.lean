import VirtineCleaning.Proofs.Device.History
import VirtineCleaning.Proofs.Ring.Contents

/-!
# The ledger of a device

No virtine is lost, duplicated or reordered between the two queues of a device. `Balanced` ties the queues and the counters of a
device to the history of its run: what was accepted is what was handled and then what waits in the Ready Queue, and what was
cleaned is what was reclaimed and then what waits in the Complete Queue. Each action keeps the balance, the accesses to the window
in whatever order and width they come, so every run keeps it (`balanced_of_run`).
-/

namespace VirtineCleaning

open History

/-- The queues and the counters of a device agree with lists of the addresses that entered the Ready Queue, left it, were cleaned
or dropped, and left the Complete Queue. -/
structure Device.Tallies (d : Device) (accepted handled cleaned failed reclaimed : List Address) : Prop where
  ready : ∃ waiting, d.ready.Holds waiting ∧ accepted = handled ++ waiting
  complete : ∃ waiting, d.complete.Holds waiting ∧ cleaned = reclaimed ++ waiting
  submitted : d.stats.submitted = accepted.length
  cleaned : d.stats.cleaned = cleaned.length
  copyFailures : d.stats.copyFailures = failed.length
  reclaimed : d.stats.reclaimed = reclaimed.length

/-- The queues and the counters of a device agree with the history of its run. -/
def Device.Balanced (d : Device) (h : History) : Prop :=
  d.Tallies (accepted h) (handled h) (cleaned h) (failed h) (reclaimed h)

namespace Device.Balanced

variable {d : Device} {h : History}

/-- A new device is balanced with an empty history. -/
theorem fresh (batchFactor : Word) (line : Line) : Device.Balanced { batchFactor, line } [] where
  ready := ⟨[], Ring.Holds.empty, rfl⟩
  complete := ⟨[], Ring.Holds.empty, rfl⟩
  submitted := rfl
  cleaned := rfl
  copyFailures := rfl
  reclaimed := rfl

/-! ## What the balance says -/

theorem ready_holds (hb : d.Balanced h) : d.ready.Holds d.ready.toList := by
  obtain ⟨waiting, hholds, -⟩ := hb.ready
  rw [hholds.toList_eq]
  exact hholds

theorem complete_holds (hb : d.Balanced h) : d.complete.Holds d.complete.toList := by
  obtain ⟨waiting, hholds, -⟩ := hb.complete
  rw [hholds.toList_eq]
  exact hholds

/-- What was accepted was handled, in the same order, or waits in the Ready Queue. -/
theorem accepted_eq (hb : d.Balanced h) : accepted h = handled h ++ d.ready.toList := by
  obtain ⟨waiting, hholds, heq⟩ := hb.ready
  rw [hholds.toList_eq, heq]

/-- What was cleaned was reclaimed, in the same order, or waits in the Complete Queue. -/
theorem cleaned_eq (hb : d.Balanced h) : History.cleaned h = History.reclaimed h ++ d.complete.toList := by
  obtain ⟨waiting, hholds, heq⟩ := hb.complete
  rw [hholds.toList_eq, heq]

/-- Every submission is counted once more, as waiting, cleaned or dropped. -/
theorem submitted_eq (hb : d.Balanced h) :
    d.stats.submitted = d.ready.length + d.stats.cleaned + d.stats.copyFailures := by
  rw [hb.submitted, hb.cleaned, hb.copyFailures, hb.accepted_eq, hb.ready_holds.length_eq, List.length_append,
    length_handled]
  omega

/-- Every cleaned virtine is counted once more, as reclaimed or waiting. -/
theorem cleaned_count_eq (hb : d.Balanced h) : d.stats.cleaned = d.stats.reclaimed + d.complete.length := by
  rw [hb.cleaned, hb.reclaimed, hb.cleaned_eq, hb.complete_holds.length_eq, List.length_append]

/-! ## What keeps the balance -/

/-- Submitting a word keeps the balance: a word that is rejected changes no queue. -/
theorem enqueue (hb : d.Balanced h) (w : Word) : (d.enqueue w).Balanced (h ++ d.submitEvents w) := by
  obtain ⟨waiting, hholds, heq⟩ := hb.ready
  have hcase := d.enqueue_case w
  generalize d.enqueue w = next, d.submitEvents w = events at hcase
  unfold Device.Balanced
  cases hcase with
  | zero => simpa using { hb with }
  | full => simpa using { hb with }
  | @accepted a _ _ _ hi =>
    obtain ⟨-, hnew, -⟩ := hholds.of_insert hi
    simpa using { hb with
      ready := ⟨waiting ++ [a], hnew, by rw [heq, List.append_assoc]⟩
      submitted := by rw [hb.submitted, List.length_append, List.length_singleton] }

/-- Taking an address off the Complete Queue keeps the balance. -/
theorem dequeue (hb : d.Balanced h) : d.dequeue.2.Balanced (h ++ d.dequeueEvents) := by
  obtain ⟨waiting, hholds, heq⟩ := hb.complete
  have hcase := d.dequeue_case
  generalize d.dequeue = next, d.dequeueEvents = events at hcase
  unfold Device.Balanced
  cases hcase with
  | empty => simpa using { hb with }
  | @taken a _ hp =>
    obtain ⟨rest, rfl, hrest, -⟩ := hholds.of_pop hp
    simpa using { hb with
      complete := ⟨rest, hrest, by rw [heq, List.append_cons]⟩
      reclaimed := by rw [hb.reclaimed, List.length_append, List.length_singleton] }

/-- Reading the window keeps the balance. -/
theorem read (hb : d.Balanced h) (offset : Word) (length : Nat) :
    (d.read offset length).2.Balanced (h ++ d.readEvents offset length) := by
  have hcase := d.read_case offset length
  generalize (d.read offset length).2 = next, d.readEvents offset length = events at hcase
  cases hcase with
  | reclaims => exact { hb.dequeue with }
  | looks => simpa [Device.Balanced] using { hb with }

/-- Ringing the doorbell keeps the balance. -/
theorem ringDoorbell (hb : d.Balanced h) : d.ringDoorbell.Balanced (h ++ [.rung]) := by
  unfold Device.ringDoorbell Device.Balanced
  split <;> simpa using { hb with }

/-- Writing the window keeps the balance. -/
theorem write (hb : d.Balanced h) (offset : Word) (bytes : List UInt8) :
    (d.write offset bytes).2.Balanced (h ++ d.writeEvents offset bytes) := by
  have hcase := d.write_case offset bytes
  generalize d.submission? offset bytes = submission, (d.write offset bytes).2 = next,
    d.writeEvents offset bytes = events at hcase
  cases hcase with
  | submits w staged => exact enqueue (d := { d with stagedReadyTail := staged }) { hb with } w
  | rings => exact hb.ringDoorbell
  | sets => simpa [Device.Balanced] using { hb with }

end Device.Balanced

namespace Machine

variable {μ : Type} [VirtineMemory μ] {m : Machine μ} {h : History}

open Device

/-- A step of cleaning keeps the balance: what it takes off the Ready Queue it posts, for which there is room, or drops. -/
theorem balanced_cleanNext (hb : m.device.Balanced h) :
    m.cleanNext.2.device.Balanced (h ++ [.stepped m.cleanNext.1]) := by
  obtain ⟨waiting, hready, haccepted⟩ := hb.ready
  obtain ⟨done, hcomplete, hcleaned⟩ := hb.complete
  have hcase := m.cleanNext_case
  generalize m.cleanNext = next at hcase
  unfold Device.Balanced
  cases hcase with
  | stopped => simpa using { hb with }
  | drained => simpa using { hb with }
  | stalled =>
    simp only [mapDevice, stall]
    split <;> simpa using { hb with }
  | @cleaned a ready _ _ hf hp =>
    obtain ⟨rest, rfl, hrest, -⟩ := hready.of_pop hp
    obtain ⟨cleanedCount, notifications, line, heq⟩ := (m.device.withReady ready).finish_eq a
    have hroom : done.length < maxVirtines := by
      have hle := hcomplete.length_le
      rw [hcomplete.isFull_eq, decide_eq_false_iff_not] at hf
      omega
    obtain ⟨complete, hi, hposted, -⟩ := hcomplete.insert_of_room hroom a
    have hpost : (m.device.withReady ready).completeWith a = complete := by
      simp only [completeWith, withReady, hi]
    rw [heq, hpost]
    simpa using { hb with
      ready := ⟨rest, hrest, by rw [haccepted, List.append_cons]⟩
      complete := ⟨done ++ [a], hposted, by rw [hcleaned, List.append_assoc]⟩
      cleaned := by rw [List.length_append, List.length_singleton, ← hb.cleaned]; rfl }
  | @copyFailed a ready _ _ _ hp =>
    obtain ⟨rest, rfl, hrest, -⟩ := hready.of_pop hp
    simpa using { hb with
      ready := ⟨rest, hrest, by rw [haccepted, List.append_cons]⟩
      copyFailures := by rw [List.length_append, List.length_singleton, ← hb.copyFailures]; rfl }

/-- A step of the worker keeps the balance. -/
theorem balanced_workerStep (hb : m.device.Balanced h) : (m.apply .work).device.Balanced (h ++ m.events .work) := by
  have hclean := balanced_cleanNext hb
  have hcase := m.workerStep_case
  simp only [apply, events]
  generalize m.workerStep = next at hcase
  cases hcase with
  | stop hp => simpa [hp] using { hb with }
  | start hp => simpa [hp] using { hb with }
  | go hp => simpa [hp] using hclean
  | halt hp => simpa [hp] using { hclean with }
  | close hp =>
    have hclose : m.device.closeNotifications.Balanced h := by
      unfold closeNotifications counters
      split <;> exact { hb with }
    simpa [hp] using { hclose with }
  | rest hw =>
    have hp : m.device.phase ≠ .processing := by
      intro hp
      simp [hasWork, hp] at hw
    simpa [hp] using hb

/-- Every action keeps the balance. -/
theorem balanced_apply (a : Action) (hb : m.device.Balanced h) : (m.apply a).device.Balanced (h ++ m.events a) := by
  cases a with
  | read offset length => exact hb.read offset length
  | write offset bytes => exact hb.write offset bytes
  | signal => exact hb.ringDoorbell
  | requestStop => simpa [apply, events] using { hb with }
  | beginPass => simpa [apply, events] using { hb with }
  | cleanNext => exact balanced_cleanNext hb
  | endPass => simpa [apply, events] using { hb with }
  | processReadyQueue =>
    refine processReadyQueue_of_steps (P := fun m h => m.device.Balanced h) (fun a ha m h hb => ?_) hb
    simp only [List.mem_cons, List.not_mem_nil, or_false] at ha
    rcases ha with rfl | rfl | rfl
    · simpa [apply, events] using { hb with }
    · exact balanced_cleanNext hb
    · simpa [apply, events] using { hb with }
  | work => exact balanced_workerStep hb

/-- Every run of a new machine is balanced. -/
theorem balanced_of_run (memory : μ) (batchFactor : Word) (line : Line) (actions : List Action) :
    ((fresh memory batchFactor line).run actions).device.Balanced ((fresh memory batchFactor line).history actions) := by
  have hb : (fresh memory batchFactor line).device.Balanced [] := Device.Balanced.fresh batchFactor line
  exact run_of_steps (P := fun m h => m.device.Balanced h) (fun a _ m h hb => balanced_apply a hb) hb

end Machine

/-! ## Conservation -/

/-- Between the queues of a device nothing is lost, repeated or reordered. -/
structure Device.Conserves (d : Device) (h : History) : Prop where
  /-- A virtine that was accepted waits, was cleaned or was dropped. -/
  submitted_eq : d.stats.submitted = d.ready.length + d.stats.cleaned + d.stats.copyFailures
  /-- A virtine that was cleaned was reclaimed or waits. -/
  cleaned_eq : d.stats.cleaned = d.stats.reclaimed + d.complete.length
  ready_le : d.ready.length ≤ maxVirtines
  complete_le : d.complete.length ≤ maxVirtines
  accepted_eq : accepted h = handled h ++ d.ready.toList
  completed_eq : cleaned h = reclaimed h ++ d.complete.toList

/-- The counters of submissions after a write that submits a word, if any: exactly one of them goes up by one. -/
def Device.CountsSubmission (d : Device) (after : Stats) : Option Word → Prop
  | none => after.submitted = d.stats.submitted ∧ after.rejectedFull = d.stats.rejectedFull ∧
      after.rejectedZero = d.stats.rejectedZero
  | some w => (after.submitted, after.rejectedFull, after.rejectedZero) =
      if w = 0 then (d.stats.submitted, d.stats.rejectedFull, d.stats.rejectedZero + 1)
      else if d.ready.isFull then (d.stats.submitted, d.stats.rejectedFull + 1, d.stats.rejectedZero)
      else (d.stats.submitted + 1, d.stats.rejectedFull, d.stats.rejectedZero)

/-- A balanced device loses and doubles no virtine. -/
theorem Device.Balanced.conserves {d : Device} {h : History} (hb : d.Balanced h) : d.Conserves h where
  submitted_eq := hb.submitted_eq
  cleaned_eq := hb.cleaned_count_eq
  ready_le := by
    rw [hb.ready_holds.length_eq]
    exact hb.ready_holds.length_le
  complete_le := by
    rw [hb.complete_holds.length_eq]
    exact hb.complete_holds.length_le
  accepted_eq := hb.accepted_eq
  completed_eq := hb.cleaned_eq

/-- A submission is counted once. -/
theorem Device.countsSubmission_enqueue (d : Device) (w : Word) :
    d.CountsSubmission (d.enqueue w).stats (some w) := by
  have hcase := d.enqueue_case w
  generalize d.enqueue w = next, d.submitEvents w = events at hcase
  simp only [CountsSubmission]
  cases hcase with
  | zero hw => rw [if_pos hw]
  | @full a _ hw hi => rw [if_neg (hw ▸ a.word_ne_zero), if_pos (Ring.isFull_of_insert hi)]
  | @accepted a _ _ hw hi =>
    obtain ⟨hroom, -⟩ := Ring.tail_of_insert hi
    rw [if_neg (hw ▸ a.word_ne_zero), if_neg (Bool.eq_false_iff.1 hroom)]

/-- A write counts the submission that it makes, and none where it makes none. -/
theorem Device.countsSubmission_write (d : Device) (offset : Word) (bytes : List UInt8) :
    d.CountsSubmission (d.write offset bytes).2.stats (d.submission? offset bytes) := by
  have hcase := d.write_case offset bytes
  generalize d.submission? offset bytes = submission, (d.write offset bytes).2 = next,
    d.writeEvents offset bytes = events at hcase
  cases hcase with
  | submits w staged => exact countsSubmission_enqueue { d with stagedReadyTail := staged } w
  | rings =>
    unfold ringDoorbell
    split <;> exact ⟨rfl, rfl, rfl⟩
  | sets => exact ⟨rfl, rfl, rfl⟩

namespace Machine

variable {μ : Type} [VirtineMemory μ]

/-- A virtine that a step of cleaning cleans enters the Complete Queue. -/
theorem insert_of_cleaned {m : Machine μ} {h : History} (hb : m.device.Balanced h) {a : Address}
    (hc : m.cleanNext.1 = .cleaned a) :
    ∃ tail, m.device.complete.insert a = .ok (tail, m.cleanNext.2.device.complete) := by
  have hcase := m.cleanNext_case
  generalize m.cleanNext = next at hcase hc
  cases hcase with
  | @cleaned b ready _ _ hf _ =>
    cases hc
    obtain ⟨cleanedCount, notifications, line, heq⟩ := (m.device.withReady ready).finish_eq a
    have hroom : m.device.complete.toList.length < maxVirtines := by
      have hle := hb.complete_holds.length_le
      rw [hb.complete_holds.isFull_eq, decide_eq_false_iff_not] at hf
      omega
    obtain ⟨complete, hi, -⟩ := hb.complete_holds.insert_of_room hroom a
    refine ⟨complete.tail.val, ?_⟩
    rw [heq, hi]
    simp only [Device.completeWith, Device.withReady, hi]
  | _ => cases hc

/-- After any run of a new machine, through the window in whatever order and width and through the operations of a pass alike, the
queues and the counters conserve every virtine, a write counts the submission it makes once, be it by the whole of `readyTail` or by
its high half, and a cleaned virtine finds room in the Complete Queue. -/
theorem ledger_of_run (memory : μ) (batchFactor : Word) (line : Line) (actions : List Action) :
    let m := (fresh memory batchFactor line).run actions
    m.device.Conserves ((fresh memory batchFactor line).history actions) ∧
      (∀ offset bytes, m.device.CountsSubmission (m.device.write offset bytes).2.stats
        (m.device.submission? offset bytes)) ∧
      (∀ bytes, bytes.length = 8 → m.device.submission? Register.readyTail.address bytes = some (Word.ofBytes bytes)) ∧
      (∀ bytes, bytes.length = 4 → m.device.submission? (Register.readyTail.address + 4) bytes =
        some (Word.join (Word.ofBytes bytes).low (m.device.stagedReadyTail.getD 0))) ∧
      ∀ a, m.cleanNext.1 = .cleaned a →
        ∃ tail, m.device.complete.insert a = .ok (tail, m.cleanNext.2.device.complete) := by
  have hb := balanced_of_run memory batchFactor line actions
  exact ⟨hb.conserves, Device.countsSubmission_write _, fun _ hl => Device.submission?_full _ hl,
    fun _ hl => Device.submission?_high _ hl, fun _ hc => insert_of_cleaned hb hc⟩

end Machine

end VirtineCleaning

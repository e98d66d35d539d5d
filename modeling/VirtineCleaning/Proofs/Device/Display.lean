import VirtineCleaning.Memory.Dense
import VirtineCleaning.Proofs.Device.Reachable
import VirtineCleaning.Proofs.Register.Places
import VirtineCleaning.Proofs.Word

/-!
# What the window shows of the queues

The window shows the indices of the queues and their slots. The indices of a device are its counters, going round: each
submission moves the tail of the Ready Queue, each cleaned virtine that of the Complete Queue, and the head of the Ready Queue has
moved past all that was cleaned or dropped. With the indices known, each slot shows the virtine that lies as many places behind the
head as the slot does, and zero where there is none (`showsQueues_of_reachable`). No virtine has the address zero, so an empty Ready
Queue and a full one, whose indices agree alike, differ in what the slot at the head shows.
-/

namespace VirtineCleaning

namespace Device

/-! ## Words in the window -/

/-- The window shows a word at an offset, in one access or in its two halves, and the accesses leave the device as it is. -/
structure Shows (d : Device) (offset w : Word) : Prop where
  whole : d.read offset 8 = (some w.bytes, d)
  low : d.read offset 4 = (some w.low.bytes, d)
  high : d.read (offset + 4) 4 = (some w.high.bytes, d)

variable {d : Device}

/-- There is one word at an offset at most. -/
theorem Shows.unique {offset v w : Word} (hv : d.Shows offset v) (hw : d.Shows offset w) : v = w := by
  have hread := hv.whole.symm.trans hw.whole
  have hbytes : v.bytes = w.bytes := Option.some.inj (congrArg Prod.fst hread)
  rw [← Word.ofBytes_bytes v, hbytes, Word.ofBytes_bytes]

/-- A word is shown where its parts are read. -/
theorem Shows.of_parts {offset w : Word}
    (whole : d.read offset 8 = (some (littleEndian 8 (Part.full.extract w).toNat), d))
    (low : d.read offset 4 = (some (littleEndian 4 (Part.low.extract w).toNat), d))
    (high : d.read (offset + 4) 4 = (some (littleEndian 4 (Part.high.extract w).toNat), d)) : d.Shows offset w := by
  have hlow : (Part.low.extract w).toNat = w.low.toNat := UInt32.toNat_toUInt64 _
  have hhigh : (Part.high.extract w).toNat = w.high.toNat := UInt32.toNat_toUInt64 _
  rw [hlow] at low
  rw [hhigh] at high
  exact ⟨whole, low, high⟩

/-- A register whose reads extract parts of a word shows the word. -/
theorem shows_register {r : Register} {w : Word} (hread : ∀ part, d.readPart part r = (part.extract w, d))
    (hwhole : decode r.address 8 = .register r .full) (hlow : decode r.address 4 = .register r .low)
    (hhigh : decode (r.address + 4) 4 = .register r .high) : d.Shows r.address w := by
  apply Shows.of_parts
  · simp only [read, hwhole, hread]
  · simp only [read, hlow, hread]
  · simp only [read, hhigh, hread]

theorem shows_readyHead (d : Device) : d.Shows Register.readyHead.address (UInt64.ofNat d.ready.head.val) :=
  shows_register (fun _ => rfl) (by decide) (by decide) (by decide)

theorem shows_readyTail (d : Device) : d.Shows Register.readyTail.address (UInt64.ofNat d.ready.tail.val) :=
  shows_register (fun _ => rfl) (by decide) (by decide) (by decide)

theorem shows_completeTail (d : Device) : d.Shows Register.completeTail.address (UInt64.ofNat d.complete.tail.val) :=
  shows_register (fun _ => rfl) (by decide) (by decide) (by decide)

/-- A slot shows the address that it holds, zero where it is vacant. -/
theorem shows_slot (d : Device) (name : QueueName) {i : Nat} (hi : i < maxVirtines) :
    d.Shows (slotAddress name i) (Address.wordOrZero ((d.queue name).slot? i)) := by
  obtain ⟨hwhole, hlow, hhigh⟩ := decode_slot name hi
  apply Shows.of_parts
  · simp only [read, hwhole, readSlot]
  · simp only [read, hlow, readSlot]
  · simp only [read, hhigh, readSlot]

end Device

/-- Only an absent address is zero as a word. -/
theorem Address.wordOrZero_eq_zero_iff {a : Option Address} : Address.wordOrZero a = 0 ↔ a = none := by
  cases a with
  | none => exact ⟨fun _ => rfl, fun _ => rfl⟩
  | some a => exact ⟨fun h => absurd h a.word_ne_zero, nofun⟩

namespace Device

variable {d : Device}

/-- So a slot shows zero exactly where it is vacant. -/
theorem shows_zero_iff {name : QueueName} {i : Nat} (hi : i < maxVirtines) :
    d.Shows (slotAddress name i) 0 ↔ (d.queue name).slot? i = none := by
  have hslot := d.shows_slot name hi
  rw [← Address.wordOrZero_eq_zero_iff]
  constructor
  · intro hzero
    exact hslot.unique hzero
  · intro hvacant
    rw [hvacant] at hslot
    exact hslot

/-! ## The slots of a queue -/

/-- The slots of a queue show its values, oldest first, from slot `head` on and going round, and zero behind the last of them. -/
structure ShowsQueue (d : Device) (name : QueueName) (head : Nat) : Prop where
  occupied : ∀ i < maxVirtines, (i + maxVirtines - head) % maxVirtines < (d.queue name).length →
    ∃ a, (d.queue name).toList[(i + maxVirtines - head) % maxVirtines]? = some a ∧ d.Shows (slotAddress name i) a.word
  vacant : ∀ i < maxVirtines, (d.queue name).length ≤ (i + maxVirtines - head) % maxVirtines →
    d.Shows (slotAddress name i) 0

/-- A queue that holds a list is shown from its head on. -/
theorem showsQueue_of_holds (name : QueueName) {values : List Address} (h : (d.queue name).Holds values) :
    d.ShowsQueue name (d.queue name).head.val := by
  have hslot : ∀ i < maxVirtines, (d.queue name).slot? i =
      values[(i + maxVirtines - (d.queue name).head.val) % maxVirtines]? := by
    intro i hi
    rw [h.slot?_eq, if_pos hi]
  constructor
  · intro i hi hlt
    rw [h.length_eq] at hlt
    have hshows := d.shows_slot name hi
    rw [hslot i hi, List.getElem?_eq_getElem hlt] at hshows
    refine ⟨_, ?_, hshows⟩
    rw [h.toList_eq]
    exact List.getElem?_eq_getElem hlt
  · intro i hi hle
    rw [h.length_eq] at hle
    rw [shows_zero_iff hi, hslot i hi]
    exact List.getElem?_eq_none hle

/-- The slot at the head is vacant where the queue is empty, and shows an address otherwise. -/
theorem shows_zero_head_iff (name : QueueName) {values : List Address} (h : (d.queue name).Holds values) :
    d.Shows (slotAddress name (d.queue name).head.val) 0 ↔ values = [] := by
  have hfirst : (d.queue name).slot? (d.queue name).head.val = values[0]? := by
    rw [Ring.slot?, dif_pos (d.queue name).head.isLt]
    exact h.slot_head rfl
  rw [shows_zero_iff (d.queue name).head.isLt, hfirst]
  cases values with
  | nil => exact ⟨fun _ => rfl, fun _ => rfl⟩
  | cons a rest => exact ⟨nofun, nofun⟩

/-! ## The indices -/

/-- The tails of the queues are counters, going round. -/
structure Indexed (d : Device) : Prop where
  ready : d.ready.tail.val = d.stats.submitted % maxVirtines
  complete : d.complete.tail.val = d.stats.cleaned % maxVirtines

theorem indexed_fresh (batchFactor : Word) (line : Line) : Indexed { batchFactor, line } := ⟨rfl, rfl⟩

/-- One more that is counted moves the tail on by one slot. -/
theorem val_next_of_counted {tail : Fin maxVirtines} {n : Nat} (h : tail.val = n % maxVirtines) :
    (Ring.next tail).val = (n + 1) % maxVirtines := by
  rw [Ring.val_next, h, Nat.mod_add_mod]

namespace Indexed

/-- A virtine that is submitted moves the tail of the Ready Queue and is counted. -/
theorem enqueue (h : d.Indexed) (w : Word) : (d.enqueue w).Indexed := by
  have hcase := d.enqueue_case w
  generalize d.enqueue w = next, d.submitEvents w = events at hcase
  cases hcase with
  | zero => exact { h with }
  | full => exact { h with }
  | accepted _ hi =>
    obtain ⟨-, htail⟩ := Ring.tail_of_insert hi
    exact { h with ready := htail ▸ val_next_of_counted h.ready }

/-- Of the reads only a reclaim moves an index, and it is counted. -/
theorem read (h : d.Indexed) (offset : Word) (length : Nat) : (d.read offset length).2.Indexed := by
  have hcase := d.read_case offset length
  generalize (d.read offset length).2 = next, d.readEvents offset length = events at hcase
  cases hcase with
  | reclaims =>
    have hcase := d.dequeue_case
    generalize d.dequeue = next, d.dequeueEvents = events at hcase
    cases hcase with
    | empty => exact { h with }
    | taken hp => exact { h with complete := (congrArg Fin.val (Ring.tail_of_pop hp)).trans h.complete }
  | looks => exact { h with }

theorem ringDoorbell (h : d.Indexed) : d.ringDoorbell.Indexed := by
  unfold Device.ringDoorbell
  split <;> exact { h with }

/-- Of the writes only a submission moves one. -/
theorem write (h : d.Indexed) (offset : Word) (bytes : List UInt8) : (d.write offset bytes).2.Indexed := by
  have hcase := d.write_case offset bytes
  generalize d.submission? offset bytes = submission, (d.write offset bytes).2 = next,
    d.writeEvents offset bytes = events at hcase
  cases hcase with
  | submits w staged => exact enqueue (d := { d with stagedReadyTail := staged }) { h with } w
  | rings => exact h.ringDoorbell
  | sets => exact { h with }

/-- A virtine that is cleaned enters the Complete Queue, which had room for it. -/
theorem finish (h : d.Indexed) (hroom : d.complete.isFull = false) (a : Address) : (d.finish a).Indexed := by
  have htail : (d.completeWith a).tail = Ring.next d.complete.tail := by
    unfold completeWith
    cases hi : d.complete.insert a with
    | ok entered => exact (Ring.tail_of_insert hi).2
    | error e => exact absurd (hroom.symm.trans (Ring.isFull_of_insert hi)) nofun
  obtain ⟨_, _, _, heq⟩ := d.finish_eq a
  rw [heq]
  exact { h with complete := htail ▸ val_next_of_counted h.complete }

theorem closeNotifications (h : d.Indexed) : d.closeNotifications.Indexed := by
  unfold Device.closeNotifications counters
  split <;> exact { h with }

end Indexed

end Device

namespace Machine

variable {μ : Type} [VirtineMemory μ]

/-- A step of cleaning moves the head of the Ready Queue and the tail of the Complete Queue as it counts. -/
theorem indexed_cleanNext {m : Machine μ} (h : m.device.Indexed) : m.cleanNext.2.device.Indexed := by
  have hcase := m.cleanNext_case
  generalize m.cleanNext = next at hcase
  cases hcase with
  | stopped => exact h
  | drained => exact h
  | stalled =>
    simp only [mapDevice, Device.stall]
    split <;> exact { h with }
  | @cleaned a ready _ _ hf hp =>
    have hready : (m.device.withReady ready).Indexed :=
      { h with ready := (congrArg Fin.val (Ring.tail_of_pop hp)).trans h.ready }
    exact hready.finish hf a
  | copyFailed _ _ _ hp => exact { h with ready := (congrArg Fin.val (Ring.tail_of_pop hp)).trans h.ready }

/-- So indices and counters agree whatever happens. -/
theorem keeps_indexed : Keeps fun (m : Machine μ) _ => m.device.Indexed where
  read offset length h := h.read offset length
  write offset bytes h := h.write offset bytes
  signal h := h.ringDoorbell
  requestStop h := { h with }
  beginPass h := { h with }
  cleanNext h := indexed_cleanNext h
  endPass h := { h with }
  movePhase _ _ _ h := { h with }
  close _ h := { h.closeNotifications with }

/-- They do on every machine that can come about. -/
theorem Reachable.indexed {m : Machine μ} (hm : m.Reachable) : m.device.Indexed :=
  hm.of_keeps keeps_indexed (fun batchFactor line _ => Device.indexed_fresh batchFactor line) fun _ _ h => { h with }

/-- The head of the Ready Queue has moved past all that was cleaned or dropped. -/
theorem Reachable.readyHead_eq {m : Machine μ} (hm : m.Reachable) :
    m.device.ready.head.val = (m.device.stats.cleaned + m.device.stats.copyFailures) % maxVirtines := by
  obtain ⟨h, hb⟩ := hm.balanced
  have hle := hb.conserves.ready_le
  have hhead := hb.ready_holds.head_eq
  rw [← hb.ready_holds.length_eq, hm.indexed.ready, hb.submitted_eq] at hhead
  rw [hhead]
  simp only [maxVirtines] at hle ⊢
  omega

/-! ## The queues through the window -/

/-- Whatever has befallen a device, its window shows its queues. The indices are the counters, going round. The slots of each queue
show its values in order from the head on, in one access or in two, and zero elsewhere: a slot shows zero exactly where it is
vacant. So the indices of the Ready Queue and the one slot at its head tell an empty queue from a full one. -/
theorem showsQueues_of_reachable (m : Machine μ) (hm : m.Reachable) :
    let d := m.device
    let readyHead := (d.stats.cleaned + d.stats.copyFailures) % maxVirtines
    let readyTail := d.stats.submitted % maxVirtines
    let completeTail := d.stats.cleaned % maxVirtines
    let completeHead := (completeTail + maxVirtines - d.complete.length) % maxVirtines
    d.Shows Register.readyHead.address (UInt64.ofNat readyHead) ∧
      d.Shows Register.readyTail.address (UInt64.ofNat readyTail) ∧
      d.Shows Register.completeTail.address (UInt64.ofNat completeTail) ∧
      d.ShowsQueue .ready readyHead ∧ d.ShowsQueue .complete completeHead ∧
      (∀ name, ∀ i < maxVirtines, d.Shows (slotAddress name i) 0 ↔ (d.queue name).slot? i = none) ∧
      (d.ready.length = 0 ↔ readyHead = readyTail ∧ d.Shows (slotAddress .ready readyHead) 0) ∧
      (d.ready.length = maxVirtines ↔
        readyHead = readyTail ∧ ∃ w, w ≠ 0 ∧ d.Shows (slotAddress .ready readyHead) w) := by
  intro d readyHead readyTail completeTail completeHead
  obtain ⟨_, hb⟩ := hm.balanced
  have hready : d.ready.Holds d.ready.toList := hb.ready_holds
  have hcomplete : d.complete.Holds d.complete.toList := hb.complete_holds
  have hreadyHead : d.ready.head.val = readyHead := hm.readyHead_eq
  have hreadyTail : d.ready.tail.val = readyTail := hm.indexed.ready
  have hcompleteTail : d.complete.tail.val = completeTail := hm.indexed.complete
  have hcompleteHead : d.complete.head.val = completeHead := by
    rw [hcomplete.head_eq, hcompleteTail, ← hcomplete.length_eq]
  have hagree : readyHead = readyTail ↔ d.ready.length = 0 ∨ d.ready.length = maxVirtines := by
    rw [← hreadyHead, ← hreadyTail, Fin.val_inj, hready.length_eq]
    exact hready.head_eq_tail_iff
  have hempty : d.Shows (slotAddress .ready readyHead) 0 ↔ d.ready.length = 0 := by
    rw [← hreadyHead, hready.length_eq, List.length_eq_zero_iff]
    exact Device.shows_zero_head_iff .ready hready
  have hslot := d.shows_slot .ready (i := readyHead) (Nat.mod_lt _ (by decide))
  refine ⟨hreadyHead ▸ d.shows_readyHead, hreadyTail ▸ d.shows_readyTail, hcompleteTail ▸ d.shows_completeTail,
    hreadyHead ▸ Device.showsQueue_of_holds .ready hready,
    hcompleteHead ▸ Device.showsQueue_of_holds .complete hcomplete, fun name i hi => Device.shows_zero_iff hi,
    ?_, ?_⟩
  · rw [hagree, hempty]
    exact ⟨fun h => ⟨Or.inl h, h⟩, And.right⟩
  · rw [hagree]
    constructor
    · intro hfull
      refine ⟨Or.inr hfull, _, ?_, hslot⟩
      intro hzero
      rw [hzero] at hslot
      exact absurd (hfull.symm.trans (hempty.1 hslot)) (by decide)
    · rintro ⟨hlength, w, hw, hshows⟩
      rcases hlength with hlength | hlength
      · exact absurd (hshows.unique (hempty.2 hlength)) hw
      · exact hlength

/-- Three virtines were cleaned, of which one was reclaimed, and a fourth waits. -/
theorem showsQueues_of_reachable_amid_a_run :
    let submit (b : UInt8) : Action := .write Register.readyTail.address [0, b, 0, 0, 0, 0, 0, 0]
    let m := (fresh (DenseMemory.zeros 0) 1 (.ofCapacity 1)).run
      [submit 16, submit 32, submit 48, .processReadyQueue, .read Register.completeHead.address 8, submit 64]
    m.Reachable ∧ m.device.Shows Register.readyHead.address 3 ∧ m.device.Shows Register.readyTail.address 4 ∧
      m.device.Shows (slotAddress .ready 3) 0x4000 ∧ m.device.Shows (slotAddress .ready 4) 0 ∧
      m.device.Shows (slotAddress .complete 0) 0 ∧ m.device.Shows (slotAddress .complete 1) 0x2000 := by
  intro submit m
  have hm : m.Reachable := (Reachable.fresh _ _ _ (Option.some_ne_none _)).run _
  have hstats : m.device.stats.submitted = 4 ∧ m.device.stats.cleaned = 3 ∧ m.device.stats.copyFailures = 0 := by
    decide +kernel
  have hready : m.device.ready.length = 1 ∧ m.device.ready.toList = [⟨0x4000, by decide⟩] := by decide +kernel
  have hcomplete : m.device.complete.length = 2 ∧
      m.device.complete.toList = [⟨0x2000, by decide⟩, ⟨0x3000, by decide⟩] := by decide +kernel
  obtain ⟨hhead, htail, -, hwaiting, hclean, -⟩ := showsQueues_of_reachable m hm
  clear_value m
  rw [hstats.2.1, hstats.2.2] at hhead hwaiting
  rw [hstats.1] at htail
  rw [hstats.2.1, hcomplete.1] at hclean
  obtain ⟨a, ha, hoccupied⟩ := hwaiting.occupied 3 (by decide) (hready.1.symm ▸ by decide)
  obtain ⟨b, hb, hoccupied'⟩ := hclean.occupied 1 (by decide) (hcomplete.1.symm ▸ by decide)
  have ha : m.device.ready.toList[0]? = some a := ha
  have hb : m.device.complete.toList[0]? = some b := hb
  rw [hready.2] at ha
  rw [hcomplete.2] at hb
  cases ha
  cases hb
  exact ⟨hm, hhead, htail, hoccupied, hwaiting.vacant 4 (by decide) (hready.1.symm ▸ by decide),
    hclean.vacant 0 (by decide) (hcomplete.1.symm ▸ by decide), hoccupied'⟩

end Machine

end VirtineCleaning

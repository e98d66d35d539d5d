import VirtineCleaning.Proofs.Device.Head
import VirtineCleaning.Proofs.Host.Transfers

/-!
# A bus that stops transferring

A bus may move nothing from some access on, as its byte counts let it say. The calls of the host do not look at these counts: what
is not read counts as zero. So a submission that loses its last look at the tail takes that for a tail that has moved, and is
acknowledged whether its word entered or not, and a reclaim that loses the high half answers the low half alone. This module says
what the two calls answer and leave for every number of accesses that still come through, and reads off it where an acknowledgement
is false (`false_acknowledgements`).
-/

namespace VirtineCleaning

namespace Bus

variable {σ : Type} (bus : Bus σ) (offset : Word) (s : σ)

/-! ## Accesses with a budget -/

/-- A word that is not transferred reads as zero. -/
theorem limited_readWord_spent : bus.limited.readWord offset (s, some 0) = (0, (s, some 0)) := rfl

/-- So does a half. -/
theorem limited_readHalf_spent : bus.limited.readHalf offset (s, some 0) = (0, (s, some 0)) := rfl

/-- A half that is not transferred is not written. -/
theorem limited_writeHalf_spent (half : HalfWord) : bus.limited.writeHalf offset half (s, some 0) = (0, (s, some 0)) := rfl

/-- An access that comes through is one less of those that do. -/
theorem limited_readWord (n : Nat) :
    bus.limited.readWord offset (s, some (n + 1)) =
      let moved := bus.readWord offset s
      (moved.1, (moved.2, some n)) := rfl

/-- An access within the budget is made. -/
theorem limited_readHalf (n : Nat) :
    bus.limited.readHalf offset (s, some (n + 1)) =
      let moved := bus.readHalf offset s
      (moved.1, (moved.2, some n)) := rfl

theorem limited_writeHalf (half : HalfWord) (n : Nat) :
    bus.limited.writeHalf offset half (s, some (n + 1)) =
      let moved := bus.writeHalf offset half s
      (moved.1, (moved.2, some n)) := rfl

end Bus

namespace Device

variable {d e : Device}

/-- From one device to another an address entered the Ready Queue. -/
def Entered (d e : Device) (a : Address) : Prop := e.ready.toList = d.ready.toList ++ [a]

/-- From one device to another a word was given out: it was latched, or it was taken off the Complete Queue. -/
def GaveOut (d e : Device) (w : Word) : Prop :=
  d.completeHeadLatch = some w ∨ d.completeHeadLatch = none ∧ d.completeWords = w :: e.completeWords

instance (d e : Device) (a : Address) : Decidable (d.Entered e a) :=
  inferInstanceAs (Decidable (e.ready.toList = d.ready.toList ++ [a]))

instance (d e : Device) (w : Word) : Decidable (d.GaveOut e w) :=
  inferInstanceAs (Decidable (d.completeHeadLatch = some w ∨ d.completeHeadLatch = none ∧ d.completeWords = w :: e.completeWords))

/-- Nothing entered a queue that stayed as it was. -/
theorem not_entered (h : e.ready = d.ready) (a : Address) : ¬d.Entered e a := by
  intro hentered
  rw [Entered, h] at hentered
  simp at hentered

/-- A word is given out by a reclaim exactly if it is the one that is offered. -/
theorem gaveOut_iff (h : d.complete.Holds d.complete.toList) (hoffered : d.offered ≠ 0)
    (hleft : e.complete = (d.readCompleteHead .full).2.complete) (w : Word) : d.GaveOut e w ↔ w = d.offered := by
  unfold GaveOut
  cases hlatch : d.completeHeadLatch with
  | some latched =>
    rw [offered, hlatch, Option.getD_some]
    simp [eq_comm]
  | none =>
    have hwords := completeWords_readCompleteHead h hlatch
    have hsame : e.completeWords = (d.readCompleteHead .full).2.completeWords := by rw [completeWords, hleft, completeWords]
    have hfirst : [d.offered].filter (· ≠ 0) = [d.offered] := by simp [hoffered]
    rw [hfirst] at hwords
    rw [hwords, hsame]
    simp [eq_comm]

/-! ## A submission -/

/-- What a submission leaves when so many of its accesses come through: the first looks at the tail, the second stages the low half
and the third submits the word. -/
def afterSubmission (d : Device) (w : Word) : Nat → Device
  | 0 | 1 => d
  | 2 => d.stage (some w.low) .readyTail
  | _ => (d.enqueue w).stage none .readyTail

/-- The tail as a word. -/
def shownTail (d : Device) : Word := UInt64.ofNat d.ready.tail.val

/-- The tail that a submission sees at last: it takes four accesses, and reads as zero without the last one. -/
def seenTail (d : Device) (w : Word) (n : Nat) : Word := if 4 ≤ n then (d.afterSubmission w n).shownTail else 0

/-- The two writes of a submission, of which the second submits the word of both. -/
theorem write_submission (d : Device) (w : Word) :
    ((d.write Register.readyTail.address w.low.bytes).2.write (Register.readyTail.address + 4) w.high.bytes).2 =
      (d.enqueue w).stage none .readyTail := by
  have hwhole := d.write_low_high w .readyTail
  rw [write_full] at hwhole
  exact hwhole

/-- A word is submitted by the third access, if the queue has room for it, and not before. -/
theorem entered_afterSubmission (h : d.ready.Holds d.ready.toList) (a : Address) (n : Nat) :
    d.Entered (d.afterSubmission a.word n) a ↔ 3 ≤ n ∧ d.ready.isFull = false := by
  match n with
  | 0 => simp [not_entered rfl a, afterSubmission]
  | 1 => simp [not_entered rfl a, afterSubmission]
  | 2 => simp [not_entered (show (d.afterSubmission a.word 2).ready = d.ready from rfl) a]
  | n + 3 =>
    have hready : (d.afterSubmission a.word (n + 3)).ready = (d.enqueue a.word).ready := rfl
    rcases enqueue_outcome h a.word_ne_zero with ⟨-, -, hfull, hsame⟩ | ⟨-, -, hroom, hmore, -⟩
    · simp [not_entered (hready.trans hsame) a, hfull]
    · simp [Entered, hready, hmore, hroom]

/-- The tail that is seen at last differs from the one before if the word entered, and also if it is missing and that one was not
zero. -/
theorem seenTail_ne_iff (h : d.ready.Holds d.ready.toList) (a : Address) (n : Nat) :
    d.seenTail a.word n ≠ d.shownTail ↔ if 4 ≤ n then d.ready.isFull = false else d.ready.tail.val ≠ 0 := by
  have hzero : (0 : Word) = UInt64.ofNat (⟨0, by decide⟩ : Fin maxVirtines).val := rfl
  have hinj : ∀ i j : Fin maxVirtines, UInt64.ofNat i.val = UInt64.ofNat j.val ↔ i = j :=
    fun i j => ⟨ofNat_val_inj, fun hij => by rw [hij]⟩
  by_cases hn : 4 ≤ n
  · obtain ⟨k, rfl⟩ := Nat.exists_eq_add_of_le' hn
    have hready : (d.afterSubmission a.word (k + 4)).ready = (d.enqueue a.word).ready := rfl
    rw [seenTail, if_pos hn, if_pos hn, shownTail, shownTail, hready, Ne, hinj]
    rcases enqueue_outcome h a.word_ne_zero with ⟨-, -, hfull, hsame⟩ | ⟨-, -, hroom, -, hmoved⟩
    · simp [hsame, hfull]
    · have hnext : Ring.next d.ready.tail ≠ d.ready.tail := Ring.next_ne (by decide) _
      simp [hmoved, hroom, hnext]
  · rw [seenTail, if_neg hn, if_neg hn, shownTail, hzero, Ne, hinj, eq_comm, Fin.ext_iff]

/-! ## A reclaim -/

/-- What a reclaim puts together when so many of its accesses come through: the first reads the low half and the second the high
one. -/
def offeredPart (d : Device) : Nat → Word
  | 0 => 0
  | 1 => Word.join 0 d.offered.low
  | _ => d.offered

/-- What it leaves. -/
def afterReclaim (d : Device) : Nat → Device
  | 0 => d
  | 1 => { (d.readCompleteHead .full).2 with completeHeadLatch := some d.offered }
  | _ => (d.readCompleteHead .full).2

/-- A part of a word that is not the word, and yet is not zero. -/
theorem offeredPart_ne_iff (d : Device) (n : Nat) :
    d.offeredPart n ≠ 0 ∧ d.offeredPart n ≠ d.offered ↔ n = 1 ∧ d.offered.low ≠ 0 ∧ d.offered.high ≠ 0 := by
  match n with
  | 0 => simp [offeredPart]
  | 1 =>
    have hlow : Word.join 0 d.offered.low = 0 ↔ d.offered.low = 0 := by
      refine ⟨fun h => ?_, fun h => by rw [h]; rfl⟩
      rw [← Word.low_join 0 d.offered.low, h]
      rfl
    have hhigh : Word.join 0 d.offered.low = d.offered ↔ d.offered.high = 0 := by
      refine ⟨fun h => ?_, fun h => by rw [← h, Word.join_high_low]⟩
      rw [← h, Word.high_join]
    simp [offeredPart, hlow, hhigh]
  | n + 2 => simp [offeredPart]

/-- A part that is not zero is one of a word that is not zero. -/
theorem offered_ne_zero {n : Nat} (h : d.offeredPart n ≠ 0) : d.offered ≠ 0 := by
  intro hzero
  have hnone : Word.join 0 (Word.low 0) = 0 := by decide
  match n with
  | 0 => exact h rfl
  | 1 => exact h (by rw [offeredPart, hzero, hnone])
  | n + 2 => exact h hzero

/-- Whatever part is read of it, the word is off the queue. -/
theorem complete_afterReclaim {n : Nat} (h : d.offeredPart n ≠ 0) :
    (d.afterReclaim n).complete = (d.readCompleteHead .full).2.complete := by
  match n with
  | 0 => exact absurd rfl h
  | 1 => rfl
  | n + 2 => rfl

end Device

namespace Host

open Device

variable {d : Device}

/-- What a submission answers and leaves if the bus transfers nothing after `n` accesses. -/
theorem submit_limited (d : Device) {w : Word} (hw : w ≠ 0) (n : Nat) :
    ∃ left, submit Device.bus.limited w (d, some n) =
      (if d.seenTail w n = (if n = 0 then 0 else d.shownTail) then .error .queueFull else .ok (),
        (d.afterSubmission w n, left)) := by
  have hlook : ∀ d : Device, Device.bus.readWord Register.readyTail.address d = (d.shownTail, d) :=
    fun d => bus_readWord d.read_readyTail
  have hlow : (Device.bus.writeHalf Register.readyTail.address w.low d).2 = d.stage (some w.low) .readyTail :=
    d.write_low w.low .readyTail
  have hhigh : (Device.bus.writeHalf (Register.readyTail.address + 4) w.high (d.stage (some w.low) .readyTail)).2 =
      (d.enqueue w).stage none .readyTail := by
    rw [← hlow]
    exact d.write_submission w
  rw [submit_run _ hw]
  match n with
  | 0 =>
    refine ⟨some 0, ?_⟩
    simp only [Bus.limited_readWord_spent, Bus.limited_writeHalf_spent]
    rfl
  | 1 =>
    refine ⟨some 0, ?_⟩
    simp only [Bus.limited_readWord, Bus.limited_readWord_spent, Bus.limited_writeHalf_spent, hlook]
    rfl
  | 2 =>
    refine ⟨some 0, ?_⟩
    simp only [Bus.limited_readWord, Bus.limited_readWord_spent, Bus.limited_writeHalf, Bus.limited_writeHalf_spent, hlook,
      hlow]
    rfl
  | 3 =>
    refine ⟨some 0, ?_⟩
    simp only [Bus.limited_readWord, Bus.limited_readWord_spent, Bus.limited_writeHalf, hlook, hlow, hhigh]
    rfl
  | n + 4 =>
    refine ⟨some n, ?_⟩
    simp only [Bus.limited_readWord, Bus.limited_writeHalf, hlook, hlow, hhigh]
    rfl

/-- What a reclaim answers and leaves if the bus transfers nothing after `n` accesses. -/
theorem reclaim_limited (h : d.complete.Holds d.complete.toList) (n : Nat) :
    ∃ left, reclaim Device.bus.limited (d, some n) =
      (if d.offeredPart n = 0 then none else some (d.offeredPart n), (d.afterReclaim n, left)) := by
  have hoffered := readCompleteHead_full h
  have hlow := d.read_head_low
  have hhigh := d.read_head_low_high
  rw [hlow, hoffered] at hhigh
  rw [hoffered] at hlow
  rw [reclaim_run]
  match n with
  | 0 =>
    have hzero : Word.join 0 0 = 0 := by decide
    refine ⟨some 0, ?_⟩
    simp only [Bus.limited_readHalf_spent, hzero]
    rfl
  | 1 =>
    refine ⟨some 0, ?_⟩
    simp only [Bus.limited_readHalf, bus_readHalf hlow]
    rfl
  | n + 2 =>
    refine ⟨some n, ?_⟩
    simp only [Bus.limited_readHalf, bus_readHalf hlow, bus_readHalf hhigh, Word.join_high_low]
    rfl

/-- A submission is acknowledged if the tail has moved where all its accesses come through, and if the tail was not zero where only
the last ones do not. -/
theorem acknowledged_iff (h : d.ready.Holds d.ready.toList) (a : Address) (n : Nat) :
    (submit Device.bus.limited a.word (d, some n)).1 = .ok () ↔
      n ≠ 0 ∧ if 4 ≤ n then d.ready.isFull = false else d.ready.tail.val ≠ 0 := by
  obtain ⟨_, hsubmission⟩ := submit_limited d a.word_ne_zero n
  rw [hsubmission, ← seenTail_ne_iff h a n]
  by_cases hn : n = 0
  · simp [hn, seenTail]
  · by_cases hsame : d.seenTail a.word n = d.shownTail <;> simp [hn, hsame]

/-- A reclaim answers a part of what is offered, if that is not zero. -/
theorem answered_iff (h : d.complete.Holds d.complete.toList) (n : Nat) (w : Word) :
    (reclaim Device.bus.limited (d, some n)).1 = some w ↔ d.offeredPart n ≠ 0 ∧ w = d.offeredPart n := by
  obtain ⟨_, hreclaim⟩ := reclaim_limited h n
  rw [hreclaim]
  by_cases hzero : d.offeredPart n = 0 <;> simp [hzero, eq_comm]

variable {μ : Type} [VirtineMemory μ]

/-- Over a bus that transfers nothing after `n` accesses, in every state that a device can come to, a submission is acknowledged
though its address did not enter the Ready Queue exactly if the first look at the tail came through and did not show zero, and the
last one is lost together with the word, or the queue is full. A reclaim answers a word that was neither latched nor taken off the
Complete Queue exactly if the high half alone is lost, and neither half of what is offered is zero. -/
theorem false_acknowledgements (memory : μ) (batchFactor : Word) (line : Line) (actions : List Action) (a : Address) (n : Nat) :
    let d := ((Machine.fresh memory batchFactor line).run actions).device
    let submission := submit Device.bus.limited a.word (d, some n)
    let reclaimed := reclaim Device.bus.limited (d, some n)
    (submission.1 = .ok () ∧ ¬d.Entered submission.2.1 a ↔
      d.ready.tail.val ≠ 0 ∧ (n = 1 ∨ n = 2 ∨ n = 3 ∧ d.ready.isFull = true)) ∧
    ((∃ w, reclaimed.1 = some w ∧ ¬d.GaveOut reclaimed.2.1 w) ↔ n = 1 ∧ d.offered.low ≠ 0 ∧ d.offered.high ≠ 0) := by
  intro d submission reclaimed
  have hb : d.Balanced _ := Machine.balanced_of_run memory batchFactor line actions
  constructor
  · have hacknowledged : submission.1 = .ok () ↔ _ := acknowledged_iff hb.ready_holds a n
    have hentered : d.Entered submission.2.1 a ↔ 3 ≤ n ∧ d.ready.isFull = false := by
      obtain ⟨_, hsubmission⟩ := submit_limited d a.word_ne_zero n
      rw [← entered_afterSubmission hb.ready_holds a n]
      simp only [submission, hsubmission]
    rw [hacknowledged, hentered]
    cases hfull : d.ready.isFull <;> by_cases hlast : 4 ≤ n <;> simp [hlast] <;> omega
  · have hanswered : ∀ w, reclaimed.1 = some w ↔ _ := answered_iff hb.complete_holds n
    have hleft : reclaimed.2.1 = d.afterReclaim n := by
      obtain ⟨_, hreclaim⟩ := reclaim_limited hb.complete_holds n
      simp only [reclaimed, hreclaim]
    simp only [hanswered, hleft, and_assoc, exists_and_left, exists_eq_left]
    rw [← offeredPart_ne_iff]
    refine and_congr_right fun hpart => not_congr ?_
    exact gaveOut_iff hb.complete_holds (offered_ne_zero hpart) (complete_afterReclaim hpart) _

/-- With one access left, a second submission is acknowledged and lost, and a reclaim answers the low half of an address. -/
theorem false_acknowledgements_after_one_access :
    let fresh := Machine.fresh (DenseMemory.zeros 0) 1 (.ofCapacity 1)
    let d := (fresh.run [.write Register.readyTail.address [0, 16, 0, 0, 0, 0, 0, 0]]).device
    let e := (fresh.run [.write Register.readyTail.address [0, 16, 0, 0, 5, 0, 0, 0], .beginPass, .cleanNext, .endPass]).device
    let submission := submit Device.bus.limited 0x2000 (d, some 1)
    let reclaimed := reclaim Device.bus.limited (e, some 1)
    (submission.1 = .ok () ∧ ¬d.Entered submission.2.1 ⟨0x2000, by decide⟩) ∧
      e.completeWords = [0x500001000] ∧ reclaimed.1 = some 0x1000 ∧ ¬e.GaveOut reclaimed.2.1 0x1000 := by
  refine ⟨⟨rfl, ?_⟩, ?_, ?_, ?_⟩ <;> decide +kernel

end Host

end VirtineCleaning

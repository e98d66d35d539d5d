import VirtineCleaning.Proofs.Device.Halves

/-!
# The head of the Complete Queue

A host takes virtines back through `completeHead`. What it is offered there is the word that an earlier read of the low half has
latched, or else the first address of the Complete Queue, or zero where the queue is empty. A zero can be latched, too: a read of
the low half of an empty queue latches it, and until the latch is ended the register offers zero, whatever is cleaned in the
meantime.
-/

namespace VirtineCleaning

open History

/-! ## Accesses to the head -/

/-- The part of `completeHead` that an access falls on. -/
def headPart? (offset : Word) (length : Nat) : Option Part :=
  match decode offset length with
  | .register .completeHead part => some part
  | _ => none

/-- The accesses that fall on `completeHead`: to all of it, or to one of its halves. -/
inductive HeadAccess : Word → Nat → Part → Prop where
  | full : HeadAccess Register.completeHead.address 8 .full
  | low : HeadAccess Register.completeHead.address 4 .low
  | high : HeadAccess (Register.completeHead.address + 4) 4 .high

/-- What falls on a part of `completeHead` is one of the three accesses of it. -/
theorem headAccess_of_headPart? {offset : Word} {length : Nat} {part : Part} (h : headPart? offset length = some part) :
    HeadAccess offset length part := by
  have hdecode : decode offset length = .register .completeHead part := by
    unfold headPart? at h
    split at h
    · next hdec =>
      cases h
      exact hdec
    · cases h
  obtain ⟨f, hf, hregister, -, hpart⟩ := decode_eq_register_iff.1 hdecode
  have hrow : f = ⟨.completeHead, 24, 8⟩ := Field.eq_of_mem_table hf (by decide) hregister
  subst hrow
  cases part with
  | full =>
    obtain ⟨hoffset, rfl⟩ := hpart
    have haddress : offset = Register.completeHead.address := UInt64.toNat_inj.1 hoffset
    rw [haddress]
    exact .full
  | low =>
    obtain ⟨-, hoffset, rfl⟩ := hpart
    have haddress : offset = Register.completeHead.address := UInt64.toNat_inj.1 hoffset
    rw [haddress]
    exact .low
  | high =>
    obtain ⟨-, hoffset, rfl⟩ := hpart
    have haddress : offset = Register.completeHead.address + 4 := UInt64.toNat_inj.1 hoffset
    rw [haddress]
    exact .high

/-- Any other access does not read it. -/
theorem not_reads_of_headPart? {offset : Word} {length : Nat} (h : headPart? offset length = none) :
    (Action.read offset length).reads .completeHead = false := by
  unfold headPart? at h
  simp only [Action.reads]
  split at h
  · cases h
  · next hother =>
    split
    · next register part hdec =>
      rw [beq_eq_false_iff_ne]
      rintro rfl
      exact hother part hdec
    · rfl

/-- Nor does it take anything off the Complete Queue. -/
theorem Device.readEvents_of_headPart? (d : Device) {offset : Word} {length : Nat} (h : headPart? offset length = none) :
    d.readEvents offset length = [] := by
  have hkeeps : d.reclaims (decode offset length) = false := by
    unfold headPart? at h
    unfold Device.reclaims
    split at h
    · cases h
    · next hother =>
      split
      · next hdec => exact absurd hdec (hother _)
      · next hdec => exact absurd hdec (hother _)
      · rfl
  rw [Device.readEvents, hkeeps, if_neg Bool.false_ne_true]

/-! ## What is offered there -/

namespace Device

/-- The word that the next whole read of `completeHead` shows. -/
def offered (d : Device) : Word := d.completeHeadLatch.getD (Address.wordOrZero d.complete.toList.head?)

/-- The words of the addresses in the Complete Queue. -/
def completeWords (d : Device) : List Word := d.complete.toList.map Address.word

variable {d : Device}

/-- Nothing is offered where the queue is empty and nothing is latched, or where a zero is latched. -/
theorem offered_eq_zero_iff :
    d.offered = 0 ↔ d.completeHeadLatch = some 0 ∨ d.completeHeadLatch = none ∧ d.complete.toList = [] := by
  unfold offered
  cases hlatch : d.completeHeadLatch with
  | some w => simp
  | none =>
    cases hlist : d.complete.toList with
    | nil => simp [Address.wordOrZero]
    | cons a rest => simp [Address.wordOrZero, a.word_ne_zero]

/-- Taking an address off the Complete Queue shows the first one, or zero, and leaves the others. -/
theorem dequeue_offers (h : d.complete.Holds d.complete.toList) (hlatch : d.completeHeadLatch = none) :
    d.dequeue.1 = d.offered ∧ d.completeWords = [d.offered].filter (· ≠ 0) ++ d.dequeue.2.completeWords ∧
      (History.reclaimed d.dequeueEvents).map Address.word = [d.offered].filter (· ≠ 0) := by
  have hshown : d.offered = Address.wordOrZero d.complete.toList.head? := by rw [offered, hlatch, Option.getD_none]
  have hcase := d.dequeue_case
  rw [hshown, completeWords]
  generalize d.dequeue = next, d.dequeueEvents = events at hcase
  cases hcase with
  | empty hp =>
    have hnil := h.nil_of_pop hp
    rw [completeWords, hnil]
    exact ⟨rfl, rfl, rfl⟩
  | @taken a _ hp =>
    obtain ⟨rest, hlist, hrest, -⟩ := h.of_pop hp
    have hfirst : [a.word].filter (· ≠ 0) = [a.word] := by simp [a.word_ne_zero]
    rw [completeWords, hlist, List.head?_cons, Address.wordOrZero, hfirst, hrest.toList_eq]
    exact ⟨rfl, rfl, rfl⟩

/-- Where no word is latched, a read of the high half shows zero, and changes nothing. -/
theorem read_head_high_of_none (hlatch : d.completeHeadLatch = none) :
    d.read (Register.completeHead.address + 4) 4 = (some (HalfWord.bytes 0), d) := by
  have hdec : decode (Register.completeHead.address + 4) 4 = .register .completeHead .high := by decide
  simp only [read, hdec, readPart, readCompleteHead, hlatch]
  rfl

/-- A whole read shows what is offered. -/
theorem readCompleteHead_full (h : d.complete.Holds d.complete.toList) : (d.readCompleteHead .full).1 = d.offered := by
  unfold readCompleteHead
  cases hlatch : d.completeHeadLatch with
  | some w => rw [offered, hlatch, Option.getD_some]
  | none => exact (dequeue_offers h hlatch).1

/-- Where a word is latched, a whole read leaves the queue. -/
theorem complete_readCompleteHead {w : Word} (hlatch : d.completeHeadLatch = some w) :
    (d.readCompleteHead .full).2.complete = d.complete := by
  rw [readCompleteHead, hlatch]

/-- Where none is, it takes what is offered off the queue. -/
theorem completeWords_readCompleteHead (h : d.complete.Holds d.complete.toList) (hlatch : d.completeHeadLatch = none) :
    d.completeWords = [d.offered].filter (· ≠ 0) ++ (d.readCompleteHead .full).2.completeWords := by
  rw [readCompleteHead, hlatch]
  exact (dequeue_offers h hlatch).2.1

end Device

end VirtineCleaning

import VirtineCleaning.Register.Decode

/-!
# Where an access falls

The fields of the window lie one behind the other, so a place belongs to one of them at most, and the first that covers it is that
one (`decode_of_covers`). Inside a ring the slots do, too.
-/

namespace VirtineCleaning

/-! ## The field of a place -/

namespace Field

/-- A field covers the places from its offset on, as many as it is wide. -/
theorem covers_iff {f : Field} {n : Nat} : f.covers n = true ↔ f.offset ≤ n ∧ n < f.offset + f.width := by
  rw [covers, stop, Bool.and_eq_true, decide_eq_true_iff, decide_eq_true_iff]

/-- Fields that are laid out from a place on begin there or later. -/
theorem le_offset_of_mem_layOut {start : Nat} {rs : List Register} {f : Field} (hf : f ∈ layOut start rs) :
    start ≤ f.offset := by
  induction rs generalizing start with
  | nil => cases hf
  | cons r rs ih =>
    rcases List.mem_cons.1 hf with rfl | hf
    · exact Nat.le_refl start
    · have hlater := ih hf
      omega

/-- A search finds the field that covers a place: the fields in front of it have ended there. -/
theorem find?_layOut {start : Nat} {rs : List Register} {f : Field} (hf : f ∈ layOut start rs) {n : Nat}
    (hn : f.covers n = true) : (layOut start rs).find? (·.covers n) = some f := by
  induction rs generalizing start with
  | nil => cases hf
  | cons r rs ih =>
    rw [layOut, List.find?_cons]
    rcases List.mem_cons.1 hf with rfl | hf
    · rw [hn]
    · have hlater := le_offset_of_mem_layOut hf
      have hplace := (covers_iff.1 hn).1
      have hended : covers ⟨r, start, r.width⟩ n = false := by
        rw [Bool.eq_false_iff, ne_eq, covers_iff]
        dsimp only
        omega
      rw [hended]
      exact ih hf

end Field

/-- An access at a place that a field covers falls on what the field has there. -/
theorem decode_of_covers {f : Field} (hf : f ∈ Field.table) {offset : Word} {length : Nat} (hlength : length ≠ 0)
    (halign : offset.toNat % accessAlign = 0) (hcovers : f.covers offset.toNat = true) :
    decode offset length = f.target (offset.toNat - f.offset) length := by
  have hfound : Field.table.find? (·.covers offset.toNat) = some f := Field.find?_layOut hf hcovers
  have hmoves : ¬(length = 0 ∨ offset.toNat % accessAlign ≠ 0) := by
    rintro (hzero | hmisaligned)
    · exact hlength hzero
    · exact hmisaligned halign
  rw [decode, if_neg hmoves, hfound]

/-! ## Slots -/

/-- The field that shows a queue. -/
def QueueName.register : QueueName → Register
  | .ready => .readyRing
  | .complete => .completeRing

/-- Where slot `i` of a queue begins in the window. -/
def slotAddress (name : QueueName) (i : Nat) : Word := UInt64.ofNat (name.register.offset + slotWidth * i)

/-- A slot lies in the field of its queue, behind the slots in front of it. -/
theorem toNat_slotAddress (name : QueueName) {i : Nat} (hi : i < maxVirtines) :
    (slotAddress name i).toNat = name.register.offset + slotWidth * i := by
  have hoffset : name.register.offset ≤ windowSize := by cases name <;> decide
  simp only [maxVirtines, windowSize] at hi hoffset
  rw [slotAddress, UInt64.toNat_ofNat', slotWidth]
  omega

end VirtineCleaning

import VirtineCleaning.Device.Window
import VirtineCleaning.Proofs.Word

/-!
# Registers that are written in place

The batch factor and the size of the snapshot are plain cells of the window: a write of a half replaces that half at once, and a
write of the whole replaces both together. The two halves of a word, written one after the other, leave what the whole word leaves
(`write_cell_low_high`), but between them the register holds a mix of the old word and the new one.
-/

namespace VirtineCleaning

/-- The registers that hold what was last written to each of their halves. -/
inductive CellRegister where
  | batchFactor
  | snapshotSize
deriving DecidableEq, Repr

/-- The register in the window. -/
def CellRegister.register : CellRegister → Register
  | .batchFactor => .batchFactor
  | .snapshotSize => .snapshotSize

/-- Where the register lies in the window. -/
def CellRegister.address (r : CellRegister) : Word := r.register.address

namespace Device

/-- What a register holds. -/
def cell (d : Device) : CellRegister → Word
  | .batchFactor => d.batchFactor
  | .snapshotSize => d.snapshot.size

/-- The device with another word in a register. -/
def setCell (d : Device) (w : Word) : CellRegister → Device
  | .batchFactor => { d with batchFactor := w }
  | .snapshotSize => { d with snapshot := { d.snapshot with size := w } }

@[simp] theorem cell_setCell (d : Device) (w : Word) (r : CellRegister) : (d.setCell w r).cell r = w := by
  cases r <;> rfl

@[simp] theorem setCell_setCell (d : Device) (w v : Word) (r : CellRegister) :
    (d.setCell w r).setCell v r = d.setCell v r := by
  cases r <;> rfl

/-- A write of a part of a register merges it into what the register holds. -/
theorem writePart_cell (d : Device) (part : Part) (value : Word) (r : CellRegister) :
    d.writePart part value r.register = d.setCell (part.merge (d.cell r) value) r := by
  cases r <;> rfl

/-- A write of the whole register replaces its word. -/
theorem write_cell (d : Device) (w : Word) (r : CellRegister) : d.write r.address w.bytes = (8, d.setCell w r) := by
  have hdec : decode r.address 8 = .register r.register .full := by
    cases r <;> decide
  simp only [write, Word.length_bytes, hdec, writePart_cell, Part.merge, Word.ofBytes_bytes]

/-- A write of the low half leaves the high one. -/
theorem write_cell_low (d : Device) (half : HalfWord) (r : CellRegister) :
    d.write r.address half.bytes = (4, d.setCell (Word.join (d.cell r).high half) r) := by
  have hdec : decode r.address 4 = .register r.register .low := by
    cases r <;> decide
  simp only [write, HalfWord.length_bytes, hdec, writePart_cell, Part.merge, HalfWord.low_ofBytes_bytes]

/-- A write of the high half leaves the low one. -/
theorem write_cell_high (d : Device) (half : HalfWord) (r : CellRegister) :
    d.write (r.address + 4) half.bytes = (4, d.setCell (Word.join half (d.cell r).low) r) := by
  have hdec : decode (r.address + 4) 4 = .register r.register .high := by
    cases r <;> decide
  simp only [write, HalfWord.length_bytes, hdec, writePart_cell, Part.merge, HalfWord.low_ofBytes_bytes]

/-- A word in two halves leaves what the whole word leaves. -/
theorem write_cell_low_high (d : Device) (w : Word) (r : CellRegister) :
    ((d.write r.address w.low.bytes).2.write (r.address + 4) w.high.bytes).2 = (d.write r.address w.bytes).2 := by
  rw [write_cell_low, write_cell_high, write_cell, cell_setCell, Word.low_join, Word.join_high_low, setCell_setCell]

end Device

end VirtineCleaning

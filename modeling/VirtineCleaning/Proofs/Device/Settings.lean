import Mathlib.Data.List.Induction
import VirtineCleaning.Proofs.Device.Cells
import VirtineCleaning.Proofs.Device.Display
import VirtineCleaning.Proofs.Device.Frame
import VirtineCleaning.Proofs.Device.Trail

/-!
# Settings read back what was written

What the host sets it can read again, whatever else the device does. The batch factor and the size of the snapshot are memory: each
of their bytes is the one last written there, in whatever order and mix of widths the writes came. The address of the snapshot is
the one last committed: by a write of the whole, or by one of the high half, with the low half that was last staged for it. Both
are told from the writes of a run alone, looking back from its end (`settings_of_run`).
-/

namespace VirtineCleaning

/-! ## What a run has written -/

namespace Action

/-- The byte that an action leaves at place `i` of a register: that of a write that falls on the register and covers the place. -/
def byteAt? (r : Register) (i : Nat) : Action → Option UInt8
  | .write offset bytes =>
    match decode offset bytes.length with
    | .register register _ =>
      if register = r ∧ offset.toNat ≤ r.offset + i then bytes[r.offset + i - offset.toNat]? else none
    | _ => none
  | _ => none

/-- The byte that actions have last written at place `i` of a register, `initial` where they wrote none. -/
def lastByte (r : Register) (i : Nat) (initial : UInt8) (actions : List Action) : UInt8 :=
  (actions.filterMap (byteAt? r i)).getLastD initial

theorem lastByte_concat (r : Register) (i : Nat) (initial : UInt8) (actions : List Action) (a : Action) :
    lastByte r i initial (actions ++ [a]) = (a.byteAt? r i).getD (lastByte r i initial actions) := by
  unfold lastByte
  rw [List.filterMap_append]
  cases h : a.byteAt? r i with
  | none => simp [h]
  | some b => simp [h]

end Action

/-- A write that falls on the address of the snapshot. -/
inductive AddressWrite where
  | whole (w : Word)
  | low (half : HalfWord)
  | high (half : HalfWord)
deriving DecidableEq, Repr

/-- The write that an action is, if it falls on the address of the snapshot. -/
def Action.addressWrite? : Action → Option AddressWrite
  | .write offset bytes =>
    match decode offset bytes.length with
    | .register .snapshotAddress .full => some (.whole (Word.ofBytes bytes))
    | .register .snapshotAddress .low => some (.low (HalfWord.ofBytes bytes))
    | .register .snapshotAddress .high => some (.high (HalfWord.ofBytes bytes))
    | _ => none
  | _ => none

namespace AddressWrite

/-- The low half that waits for its high half after writes, the latest of which comes first: the one last written since a high half
was, zero if there was none since, and `staged` if there was no high half, either. -/
def waiting (staged : HalfWord) : List AddressWrite → HalfWord
  | [] => staged
  | .low half :: _ => half
  | .high _ :: _ => 0
  | .whole _ :: earlier => waiting staged earlier

/-- The address last committed by writes, the latest of which comes first, `initial` if they committed none. -/
def committed (initial : Word) (staged : HalfWord) : List AddressWrite → Word
  | [] => initial
  | .whole w :: _ => w
  | .high half :: earlier => Word.join half (waiting staged earlier)
  | .low _ :: earlier => committed initial staged earlier

end AddressWrite

/-! ## What one write does -/

theorem mapIdx_same {α : Type} (values : List α) : (values.mapIdx fun _ old => old) = values := by
  refine List.mapIdx_eq_iff.2 fun i => ?_
  rw [Option.map_id']

/-- An access that falls on a part of a register lies where the part does. -/
theorem isAt_of_decode {offset : Word} {length : Nat} {r : Register} {part : Part}
    (h : decode offset length = .register r part) : part.IsAt r.offset r.width offset.toNat length := by
  obtain ⟨f, hf, rfl, -, hpart⟩ := decode_eq_register_iff.1 h
  rw [Field.table_eq] at hf
  obtain ⟨s, -, rfl⟩ := List.mem_map.1 hf
  exact hpart

/-- A part that is merged into a word replaces the bytes that it covers. -/
theorem Part.bytes_merge {part : Part} {base offset : Nat} {bytes : List UInt8}
    (hat : part.IsAt base 8 offset bytes.length) (w : Word) :
    (part.merge w (Word.ofBytes bytes)).bytes = w.bytes.mapIdx fun i old =>
      (if offset ≤ base + i then bytes[base + i - offset]? else none).getD old := by
  have hbytes := Word.length_bytes w
  cases part with
  | full =>
    obtain ⟨rfl, hlength⟩ := hat
    rw [merge, Word.bytes_ofBytes hlength]
    refine List.ext_getElem (by simp [hlength]) fun i hi _ => ?_
    simp [hi]
  | low =>
    obtain ⟨-, rfl, hlength⟩ := hat
    have hhalf := HalfWord.bytes_ofBytes hlength
    rw [merge, Word.bytes_eq, Word.low_join, Word.high_join, Word.low_ofBytes, hhalf]
    refine List.ext_getElem (by simp [hlength]) fun i hi _ => ?_
    simp only [Word.bytes_eq w, List.getElem_mapIdx, List.getElem_append, HalfWord.length_bytes, hlength]
    by_cases hlow : i < 4
    · simp [hlow, hlength]
    · simp [hlow, hlength]
  | high =>
    obtain ⟨-, rfl, hlength⟩ := hat
    have hhalf := HalfWord.bytes_ofBytes hlength
    rw [merge, Word.bytes_eq, Word.low_join, Word.high_join, Word.low_ofBytes, hhalf]
    refine List.ext_getElem (by simp [hlength]) fun i hi _ => ?_
    have hplace : base + i - (base + 4) = i - 4 := by omega
    simp only [Word.bytes_eq w, List.getElem_mapIdx, List.getElem_append, HalfWord.length_bytes, hplace]
    by_cases hlow : i < 4
    · have hbefore : ¬base + 4 ≤ base + i := by omega
      simp [hlow, hbefore]
    · have hbehind : i - 4 < bytes.length := by simp [hlength] at hi; omega
      have hreach : base + 4 ≤ base + i := by omega
      simp [hlow, hreach, hbehind]

namespace Device

/-- A write changes nothing but what belongs to the register that it falls on. -/
theorem write_outcome (d : Device) (offset : Word) (bytes : List UInt8) :
    (d.write offset bytes).2 = d ∨
      ∃ r part, decode offset bytes.length = .register r part ∧ d.DiffersAt r (d.write offset bytes).2 := by
  by_cases hwritable : ∃ r part, decode offset bytes.length = .register r part ∧ r.access.writable = true
  · obtain ⟨r, part, hdec, hr⟩ := hwritable
    exact Or.inr ⟨r, part, hdec, d.differsAt_write offset bytes hdec hr⟩
  · refine Or.inl (d.write_of_unwritable offset bytes fun r part hdec => ?_)
    exact Bool.eq_false_iff.2 fun hr => hwritable ⟨r, part, hdec, hr⟩

/-- A register that is written in place holds what it held after a change elsewhere. -/
theorem DiffersAt.cell_eq {d e : Device} {register : Register} (h : d.DiffersAt register e) {r : CellRegister}
    (hr : register ≠ r.register) : e.cell r = d.cell r := by
  cases h with
  | batchFactor =>
    cases r with
    | batchFactor => exact absurd rfl hr
    | snapshotSize => rfl
  | snapshotSize =>
    cases r with
    | batchFactor => rfl
    | snapshotSize => exact absurd rfl hr
  | _ => cases r <;> rfl

/-- So does the address of the snapshot, and what is staged for it. -/
theorem DiffersAt.address_eq {d e : Device} {register : Register} (h : d.DiffersAt register e)
    (hr : register ≠ .snapshotAddress) :
    e.snapshot.address = d.snapshot.address ∧ e.stagedSnapshotAddress = d.stagedSnapshotAddress := by
  cases h with
  | snapshotAddress => exact absurd rfl hr
  | _ => exact ⟨rfl, rfl⟩

/-- A write leaves each byte of a register that is written in place, unless it covers it. -/
theorem bytes_cell_write (d : Device) (offset : Word) (bytes : List UInt8) (r : CellRegister) :
    ((d.write offset bytes).2.cell r).bytes = (d.cell r).bytes.mapIdx fun i old =>
      ((Action.write offset bytes).byteAt? r.register i).getD old := by
  by_cases hfalls : ∃ part, decode offset bytes.length = .register r.register part
  · obtain ⟨part, hdec⟩ := hfalls
    have hat : part.IsAt r.register.offset 8 offset.toNat bytes.length := by
      have hat := isAt_of_decode hdec
      cases r <;> exact hat
    have hwrite : (d.write offset bytes).2.cell r = part.merge (d.cell r) (Word.ofBytes bytes) := by
      simp only [write, hdec, writePart_cell, cell_setCell]
    simp only [hwrite, Part.bytes_merge hat, Action.byteAt?, hdec, true_and]
  · have hsame : (d.write offset bytes).2.cell r = d.cell r := by
      rcases d.write_outcome offset bytes with hsame | ⟨register, part, hdec, hdiffers⟩
      · rw [hsame]
      · refine hdiffers.cell_eq ?_
        rintro rfl
        exact hfalls ⟨part, hdec⟩
    have hnone : ∀ i, (Action.write offset bytes).byteAt? r.register i = none := by
      intro i
      simp only [Action.byteAt?]
      split
      · rename_i register part hdec
        refine if_neg ?_
        rintro ⟨rfl, -⟩
        exact hfalls ⟨part, hdec⟩
      · rfl
    simp only [hsame, hnone, Option.getD_none, mapIdx_same]

/-- The address of the snapshot is what writes have committed, and what is staged for it is what waits after them. The latest of them
comes first. -/
structure Follows (d : Device) (initial : Word) (staged : HalfWord) (writes : List AddressWrite) : Prop where
  address_eq : d.snapshot.address = AddressWrite.committed initial staged writes
  staged_eq : d.stagedSnapshotAddress.getD 0 = AddressWrite.waiting staged writes

/-- What leaves the address and its staged half alone follows the same writes. -/
theorem Follows.of_same {d e : Device} {initial : Word} {staged : HalfWord} {writes : List AddressWrite}
    (h : d.Follows initial staged writes) (haddress : e.snapshot.address = d.snapshot.address)
    (hstaged : e.stagedSnapshotAddress = d.stagedSnapshotAddress) : e.Follows initial staged writes :=
  ⟨haddress.trans h.address_eq, (congrArg (·.getD 0) hstaged).trans h.staged_eq⟩

/-- A write that reaches the address is one more to follow. -/
theorem Follows.write {d : Device} {initial : Word} {staged : HalfWord} {writes : List AddressWrite}
    (h : d.Follows initial staged writes) (offset : Word) (bytes : List UInt8) :
    (d.write offset bytes).2.Follows initial staged
      ((Action.write offset bytes).addressWrite?.toList ++ writes) := by
  by_cases hfalls : ∃ part, decode offset bytes.length = .register .snapshotAddress part
  · obtain ⟨part, hdec⟩ := hfalls
    simp only [Device.write, hdec, writePart, writeSnapshotAddress, Action.addressWrite?]
    cases part with
    | full => exact ⟨rfl, h.staged_eq⟩
    | low => exact ⟨h.address_eq, Word.low_ofBytes bytes⟩
    | high =>
      refine ⟨?_, rfl⟩
      dsimp only
      rw [h.staged_eq, Word.low_ofBytes]
      rfl
  · have hnone : (Action.write offset bytes).addressWrite? = none := by
      simp only [Action.addressWrite?]
      split
      · exact absurd ⟨_, ‹_›⟩ hfalls
      · exact absurd ⟨_, ‹_›⟩ hfalls
      · exact absurd ⟨_, ‹_›⟩ hfalls
      · rfl
    rw [hnone]
    rcases d.write_outcome offset bytes with hsame | ⟨register, part, hdec, hdiffers⟩
    · rw [hsame]
      exact h
    · have helsewhere : register ≠ .snapshotAddress := by
        rintro rfl
        exact hfalls ⟨part, hdec⟩
      obtain ⟨haddress, hstaged⟩ := hdiffers.address_eq helsewhere
      exact h.of_same haddress hstaged

end Device

/-! ## What a run does -/

namespace Machine

variable {μ : Type} [VirtineMemory μ]

/-- An action leaves each byte of a register that is written in place, unless it is a write that covers it. -/
theorem bytes_cell_apply (m : Machine μ) (a : Action) (r : CellRegister) :
    ((m.apply a).device.cell r).bytes = (m.device.cell r).bytes.mapIdx fun i old =>
      (a.byteAt? r.register i).getD old := by
  by_cases hw : ∃ offset bytes, a = .write offset bytes
  · obtain ⟨offset, bytes, rfl⟩ := hw
    exact m.device.bytes_cell_write offset bytes r
  · have hsettings : (m.apply a).settings = m.settings :=
      m.settings_apply fun offset bytes heq => hw ⟨offset, bytes, heq⟩
    have hsame : (m.apply a).device.cell r = m.device.cell r := by
      cases r with
      | batchFactor => exact congrArg Prod.fst hsettings
      | snapshotSize => exact congrArg (·.2.size) hsettings
    have hnone : ∀ i, a.byteAt? r.register i = none := by
      intro i
      cases a with
      | write offset bytes => exact absurd ⟨offset, bytes, rfl⟩ hw
      | _ => rfl
    simp only [hsame, hnone, Option.getD_none, mapIdx_same]

/-- So after a run each byte is the one that was last written. -/
theorem bytes_cell_run (m : Machine μ) (actions : List Action) (r : CellRegister) :
    ((m.run actions).device.cell r).bytes = (m.device.cell r).bytes.mapIdx fun i initial =>
      Action.lastByte r.register i initial actions := by
  induction actions using List.reverseRecOn with
  | nil => exact (mapIdx_same _).symm
  | append_singleton actions a ih =>
    rw [run_concat, bytes_cell_apply, ih, List.mapIdx_mapIdx]
    simp only [Function.comp_def, Action.lastByte_concat]

/-- Nothing but a write commits or stages an address. -/
theorem follows_apply {m : Machine μ} {initial : Word} {staged : HalfWord} {writes : List AddressWrite}
    (h : m.device.Follows initial staged writes) (a : Action) :
    (m.apply a).device.Follows initial staged (a.addressWrite?.toList ++ writes) := by
  by_cases hw : ∃ offset bytes, a = .write offset bytes
  · obtain ⟨offset, bytes, rfl⟩ := hw
    exact h.write offset bytes
  · have hsettings : (m.apply a).settings = m.settings :=
      m.settings_apply fun offset bytes heq => hw ⟨offset, bytes, heq⟩
    have hquiet : a.writesHalf .snapshotAddress = false ∧ a.addressWrite? = none := by
      cases a with
      | write offset bytes => exact absurd ⟨offset, bytes, rfl⟩ hw
      | _ => exact ⟨rfl, rfl⟩
    rw [hquiet.2]
    exact h.of_same (congrArg (·.2.address) hsettings) (m.staged_apply (r := .snapshotAddress) hquiet.1)

/-- So after a run the address is the one that was last committed. -/
theorem follows_run (m : Machine μ) (actions : List Action) :
    (m.run actions).device.Follows m.device.snapshot.address (m.device.stagedSnapshotAddress.getD 0)
      (actions.filterMap Action.addressWrite?).reverse := by
  induction actions using List.reverseRecOn with
  | nil => exact ⟨rfl, rfl⟩
  | append_singleton actions a ih =>
    have hwrites : ((actions ++ [a]).filterMap Action.addressWrite?).reverse =
        a.addressWrite?.toList ++ (actions.filterMap Action.addressWrite?).reverse := by
      rw [List.filterMap_append, List.reverse_append]
      cases h : a.addressWrite? <;> simp [h]
    rw [run_concat, hwrites]
    exact follows_apply ih a

end Machine

/-! ## What is read after a run -/

namespace Device

/-- The window shows a register that is written in place. -/
theorem shows_cell (d : Device) (r : CellRegister) : d.Shows r.address (d.cell r) := by
  cases r with
  | batchFactor => exact shows_register (fun _ => rfl) (by decide) (by decide) (by decide)
  | snapshotSize => exact shows_register (fun _ => rfl) (by decide) (by decide) (by decide)

theorem shows_snapshotAddress (d : Device) : d.Shows Register.snapshotAddress.address d.snapshot.address :=
  shows_register (fun _ => rfl) (by decide) (by decide) (by decide)

end Device

namespace Machine

variable {μ : Type} [VirtineMemory μ]

/-- After any run, whole or by halves, the batch factor and the size of the snapshot read as the bytes that the run has last written
at each place, or as the bytes that were there where it wrote none, and the address of the snapshot reads as the one that it has
last committed. A new device has nothing staged, so there a high half that no low half came before commits zero below it. -/
theorem settings_of_run (m : Machine μ) (actions : List Action) :
    let d := (m.run actions).device
    (∀ r : CellRegister, ∃ w, d.Shows r.address w ∧
      w.bytes = (m.device.cell r).bytes.mapIdx fun i initial => Action.lastByte r.register i initial actions) ∧
    d.Shows Register.snapshotAddress.address (AddressWrite.committed m.device.snapshot.address
      (m.device.stagedSnapshotAddress.getD 0) (actions.filterMap Action.addressWrite?).reverse) := by
  intro d
  constructor
  · intro r
    exact ⟨d.cell r, d.shows_cell r, m.bytes_cell_run actions r⟩
  · rw [← (m.follows_run actions).address_eq]
    exact d.shows_snapshotAddress

/-- What waits for its high half does not see a whole address that is written in the meantime. -/
example : AddressWrite.committed 0 0 [.high 1, .whole 5, .low 2] = 0x100000002 := by decide

end Machine

end VirtineCleaning

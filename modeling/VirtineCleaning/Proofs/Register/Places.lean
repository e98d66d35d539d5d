import Mathlib.Algebra.GroupWithZero.Nat
import Mathlib.Logic.ExistsUnique
import VirtineCleaning.Proofs.Register.Decode

/-!
# Which accesses fall where

A register of four bytes is accessed whole; one of eight bytes, and a slot of a ring, also by halves. These are all the accesses
that fall on something (`decode_exact`): each part has one place, an access that is no part's place is unknown, and one that is
empty or misaligned is none at all. The fields leave no gap, so an aligned access of four bytes falls on something wherever there
is a field.
-/

namespace VirtineCleaning

/-! ## The places of parts -/

/-- Where a part lies of what begins at `base` and is `width` bytes wide: all of it begins there, and so does its low half if it is
eight bytes wide, with the high half behind. -/
def Part.IsAt (base width offset length : Nat) : Part → Prop
  | .full => offset = base ∧ length = width
  | .low => width = 8 ∧ offset = base ∧ length = 4
  | .high => width = 8 ∧ offset = base + 4 ∧ length = 4

namespace Part

variable {base width offset length : Nat} {part : Part}

/-- What is four or eight bytes wide has exactly these parts. -/
theorem of?_eq_some_iff (base : Nat) {start : Nat} (hwidth : width = 4 ∨ width = 8) :
    of? width start length = some part ↔ part.IsAt base width (base + start) length := by
  rcases hwidth with rfl | rfl
  all_goals
    unfold of?
    split <;> cases part <;> simp_all [IsAt]

/-- A part lies inside, at a multiple of four if it begins at one, and is four or eight bytes long. -/
theorem IsAt.bounds (h : part.IsAt base width offset length) (hwidth : width = 4 ∨ width = 8) :
    base ≤ offset ∧ offset < base + width ∧ (length = 4 ∨ length = 8) ∧ (base % 4 = 0 → offset % 4 = 0) := by
  cases part <;> simp only [IsAt] at h <;> omega

/-- A part lies at one place. -/
theorem IsAt.unique {offset' length' : Nat} (h : part.IsAt base width offset length)
    (h' : part.IsAt base width offset' length') : offset = offset' ∧ length = length' := by
  cases part <;> simp only [IsAt] at h h' <;> omega

/-- All of it lies somewhere, and so do its halves if it is eight bytes wide. -/
theorem exists_isAt (part : Part) (base : Nat) (h : part = .full ∨ width = 8) :
    ∃ offset length, part.IsAt base width offset length := by
  cases part with
  | full => exact ⟨_, _, rfl, rfl⟩
  | low => exact ⟨_, _, h.resolve_left nofun, rfl, rfl⟩
  | high => exact ⟨_, _, h.resolve_left nofun, rfl, rfl⟩

/-- Four bytes that lie inside, at a multiple of four, are all of it or a half. -/
theorem exists_isAt_four (hwidth : width = 4 ∨ width = 8) (hbase : base % 4 = 0) (halign : offset % 4 = 0)
    (hle : base ≤ offset) (hlt : offset < base + width) : ∃ part : Part, part.IsAt base width offset 4 := by
  rcases hwidth with rfl | rfl
  · exact ⟨.full, by omega, rfl⟩
  · by_cases hlow : offset = base
    · exact ⟨.low, rfl, hlow, rfl⟩
    · exact ⟨.high, rfl, by omega, rfl⟩

end Part

/-! ## The fields of the table -/

namespace Field

variable {f g : Field}

/-- A row of the table begins at a multiple of four; it is the row of a register of four or eight bytes, or of a whole ring. -/
theorem row_of_mem_table (hf : f ∈ table) :
    f.offset % accessAlign = 0 ∧ (f.register.ring? = none → f.width = 4 ∨ f.width = 8) ∧
      (f.register.ring? ≠ none → f.width = slotWidth * maxVirtines) := by
  have hrows : ∀ f ∈ table, f.offset % accessAlign = 0 ∧ (f.register.ring? = none → f.width = 4 ∨ f.width = 8) ∧
      (f.register.ring? ≠ none → f.width = slotWidth * maxVirtines) := by decide
  exact hrows f hf

/-- A register has one row. -/
theorem eq_of_mem_table (hf : f ∈ table) (hg : g ∈ table) (h : f.register = g.register) : f = g := by
  rw [table_eq] at hf hg
  obtain ⟨r, -, rfl⟩ := List.mem_map.1 hf
  obtain ⟨s, -, rfl⟩ := List.mem_map.1 hg
  cases h
  rfl

/-- Every register has a row. -/
theorem exists_mem_table (r : Register) : ∃ f ∈ table, f.register = r := by
  have hrows : ∀ r, ⟨r, r.offset, r.width⟩ ∈ table := by
    intro r
    cases r <;> decide
  exact ⟨_, hrows r, rfl⟩

/-- Fields that are laid out one behind the other leave no gap. -/
theorem exists_covers {start : Nat} {rs : List Register} {n : Nat} (hlow : start ≤ n)
    (hhigh : n < start + (rs.map Register.width).sum) : ∃ f ∈ layOut start rs, f.covers n = true := by
  induction rs generalizing start with
  | nil =>
    rw [List.map_nil, List.sum_nil] at hhigh
    omega
  | cons r rs ih =>
    rw [List.map_cons, List.sum_cons] at hhigh
    by_cases hfirst : n < start + r.width
    · exact ⟨_, List.mem_cons_self, covers_iff.2 ⟨hlow, hfirst⟩⟩
    · have hnext : start + r.width ≤ n := Nat.le_of_not_lt hfirst
      obtain ⟨f, hf, hcovers⟩ := ih hnext (by omega)
      exact ⟨f, List.mem_cons_of_mem _ hf, hcovers⟩

/-- A row of the table ends where all of them have ended, at the latest. -/
theorem stop_le_of_mem_table (hf : f ∈ table) : f.offset + f.width ≤ 0x688 := by
  have hrows : ∀ f ∈ table, f.offset + f.width ≤ 0x688 := by decide
  exact hrows f hf

end Field

/-! ## The places of targets -/

namespace Target

/-- Where the part of a register lies, or that of a slot of a ring. -/
def IsAt (offset length : Nat) : Target → Prop
  | .register r part => ∃ f ∈ Field.table, f.register = r ∧ r.ring? = none ∧ part.IsAt f.offset f.width offset length
  | .slot name i part => ∃ f ∈ Field.table, f.register.ring? = some name ∧ i < maxVirtines ∧
      part.IsAt (f.offset + slotWidth * i) slotWidth offset length
  | .dropped | .unknown => False

/-- A target lies in a field of the table, which has it there. -/
theorem IsAt.target_eq {offset length : Nat} {t : Target} (h : t.IsAt offset length) :
    ∃ f ∈ Field.table, f.covers offset = true ∧ offset % accessAlign = 0 ∧ (length = 4 ∨ length = 8) ∧
      f.target (offset - f.offset) length = t := by
  cases t with
  | dropped => cases h
  | unknown => cases h
  | register r part =>
    obtain ⟨f, hf, rfl, hring, hpart⟩ := h
    obtain ⟨halign, hwidth, -⟩ := Field.row_of_mem_table hf
    obtain ⟨hle, hlt, hlength, haligned⟩ := hpart.bounds (hwidth hring)
    have hplace : part.IsAt f.offset f.width (f.offset + (offset - f.offset)) length := by
      rwa [Nat.add_sub_cancel' hle]
    refine ⟨f, hf, Field.covers_iff.2 ⟨hle, hlt⟩, haligned halign, hlength, ?_⟩
    rw [Field.target, hring]
    dsimp only
    rw [(Part.of?_eq_some_iff _ (hwidth hring)).2 hplace]
  | slot name i part =>
    obtain ⟨f, hf, hring, hi, hpart⟩ := h
    obtain ⟨halign, -, hwidth⟩ := Field.row_of_mem_table hf
    have hwidth := hwidth (by rw [hring]; exact Option.some_ne_none name)
    obtain ⟨hle, hlt, hlength, haligned⟩ := hpart.bounds (Or.inr rfl)
    -- the place divides into the slot and the start within it
    simp only [slotWidth, maxVirtines, accessAlign] at *
    have hslot : (offset - f.offset) / 8 = i := by omega
    have hplace : part.IsAt (f.offset + 8 * i) 8 (f.offset + 8 * i + (offset - f.offset) % 8) length := by
      have hstart : f.offset + 8 * i + (offset - f.offset) % 8 = offset := by omega
      rwa [hstart]
    refine ⟨f, hf, Field.covers_iff.2 ⟨by omega, by omega⟩, haligned (by omega), hlength, ?_⟩
    rw [Field.target, hring]
    simp only [slotWidth]
    rw [(Part.of?_eq_some_iff _ (Or.inr rfl)).2 hplace, hslot]

end Target

/-- What a field of the table has at a place, if anything, lies there. -/
theorem isAt_target {f : Field} (hf : f ∈ Field.table) {offset length : Nat} (hcovers : f.covers offset = true) :
    f.target (offset - f.offset) length = .unknown ∨
      (f.target (offset - f.offset) length).IsAt offset length := by
  obtain ⟨-, hscalar, hring⟩ := Field.row_of_mem_table hf
  obtain ⟨hle, hlt⟩ := Field.covers_iff.1 hcovers
  unfold Field.target
  cases hname : f.register.ring? with
  | none =>
    dsimp only
    cases hpart : Part.of? f.width (offset - f.offset) length with
    | none => exact Or.inl rfl
    | some part =>
      have hplace := (Part.of?_eq_some_iff f.offset (hscalar hname)).1 hpart
      rw [Nat.add_sub_cancel' hle] at hplace
      exact Or.inr ⟨f, hf, rfl, hname, hplace⟩
  | some name =>
    dsimp only
    cases hpart : Part.of? slotWidth ((offset - f.offset) % slotWidth) length with
    | none => exact Or.inl rfl
    | some part =>
      have hwidth := hring (by rw [hname]; exact Option.some_ne_none name)
      have hplace := (Part.of?_eq_some_iff (f.offset + slotWidth * ((offset - f.offset) / slotWidth)) (Or.inr rfl)).1 hpart
      simp only [slotWidth, maxVirtines] at hwidth hplace ⊢
      have hstart : f.offset + 8 * ((offset - f.offset) / 8) + (offset - f.offset) % 8 = offset := by omega
      rw [hstart] at hplace
      exact Or.inr ⟨f, hf, hname, by simp only [maxVirtines]; omega, hplace⟩

/-- An access that is neither empty nor misaligned falls on what lies at its place, if it is known. -/
theorem decode_of_moves {offset : Word} {length : Nat} (hmoves : ¬(length = 0 ∨ offset.toNat % accessAlign ≠ 0)) :
    decode offset length = .unknown ∨ (decode offset length).IsAt offset.toNat length := by
  rw [decode, if_neg hmoves]
  cases hfound : Field.table.find? (·.covers offset.toNat) with
  | none => exact Or.inl rfl
  | some f =>
    have hcovers : f.covers offset.toNat = true := List.find?_some (p := fun f : Field => f.covers offset.toNat) hfound
    exact isAt_target (List.mem_of_find?_eq_some hfound) hcovers

/-- An access that is empty or misaligned is none, and no other is. -/
theorem decode_eq_dropped_iff {offset : Word} {length : Nat} :
    decode offset length = .dropped ↔ length = 0 ∨ offset.toNat % accessAlign ≠ 0 := by
  by_cases hmoves : length = 0 ∨ offset.toNat % accessAlign ≠ 0
  · rw [decode, if_pos hmoves]
    exact ⟨fun _ => hmoves, fun _ => rfl⟩
  · refine ⟨fun hdropped => ?_, fun h => absurd h hmoves⟩
    have hcase := decode_of_moves hmoves
    rw [hdropped] at hcase
    rcases hcase with hunknown | hat
    · cases hunknown
    · cases hat

/-- An access falls on what lies at its place. -/
theorem decode_of_isAt {offset : Word} {length : Nat} {t : Target} (h : t.IsAt offset.toNat length) :
    decode offset length = t := by
  obtain ⟨f, hf, hcovers, haligned, hlength, htarget⟩ := h.target_eq
  rw [decode_of_covers hf (by omega) haligned hcovers, htarget]

/-- It falls on nothing else that is known. -/
theorem decode_eq_iff {offset : Word} {length : Nat} {t : Target} (hmoves : t ≠ .dropped) (hknown : t ≠ .unknown) :
    decode offset length = t ↔ t.IsAt offset.toNat length := by
  refine ⟨?_, decode_of_isAt⟩
  rintro rfl
  rw [ne_eq, decode_eq_dropped_iff] at hmoves
  exact (decode_of_moves hmoves).resolve_left hknown

/-- An access falls on a part of a register exactly where that lies in the row of the register. -/
theorem decode_eq_register_iff {offset : Word} {length : Nat} {r : Register} {part : Part} :
    decode offset length = .register r part ↔
      ∃ f ∈ Field.table, f.register = r ∧ r.ring? = none ∧ part.IsAt f.offset f.width offset.toNat length :=
  decode_eq_iff Target.noConfusion Target.noConfusion

/-- It falls on a part of a slot exactly where that lies in the row of the ring. -/
theorem decode_eq_slot_iff {offset : Word} {length : Nat} {name : QueueName} {i : Nat} {part : Part} :
    decode offset length = .slot name i part ↔
      ∃ f ∈ Field.table, f.register.ring? = some name ∧ i < maxVirtines ∧
        part.IsAt (f.offset + slotWidth * i) slotWidth offset.toNat length :=
  decode_eq_iff Target.noConfusion Target.noConfusion

/-- Every slot of a queue can be accessed whole and by halves. -/
theorem decode_slot (name : QueueName) {i : Nat} (hi : i < maxVirtines) :
    decode (slotAddress name i) 8 = .slot name i .full ∧ decode (slotAddress name i) 4 = .slot name i .low ∧
      decode (slotAddress name i + 4) 4 = .slot name i .high := by
  have hrow : ⟨name.register, name.register.offset, slotWidth * maxVirtines⟩ ∈ Field.table := by
    cases name <;> decide
  have hring : name.register.ring? = some name := by cases name <;> rfl
  have hbegin := toNat_slotAddress name hi
  have hmiddle : (slotAddress name i + 4).toNat = name.register.offset + slotWidth * i + 4 := by
    have hoffset : name.register.offset ≤ windowSize := by cases name <;> decide
    simp only [maxVirtines, slotWidth, windowSize] at *
    rw [UInt64.toNat_add, hbegin]
    exact Nat.mod_eq_of_lt (show name.register.offset + 8 * i + 4 < 2 ^ 64 by omega)
  refine ⟨decode_eq_slot_iff.2 ?_, decode_eq_slot_iff.2 ?_, decode_eq_slot_iff.2 ?_⟩
  · exact ⟨_, hrow, hring, hi, hbegin, rfl⟩
  · exact ⟨_, hrow, hring, hi, rfl, hbegin, rfl⟩
  · exact ⟨_, hrow, hring, hi, rfl, hmiddle, rfl⟩

/-- An access that lies at no place is unknown. -/
theorem decode_eq_unknown_iff {offset : Word} {length : Nat} :
    decode offset length = .unknown ↔
      length ≠ 0 ∧ offset.toNat % accessAlign = 0 ∧ ∀ t : Target, ¬t.IsAt offset.toNat length := by
  constructor
  · intro hunknown
    have hmoves : ¬(length = 0 ∨ offset.toNat % accessAlign ≠ 0) := by
      rw [← decode_eq_dropped_iff, hunknown]
      exact nofun
    refine ⟨by omega, by omega, ?_⟩
    intro t hat
    have hfalls := decode_of_isAt hat
    rw [← hfalls, hunknown] at hat
    cases hat
  · rintro ⟨hlength, haligned, hnone⟩
    exact (decode_of_moves (by omega)).resolve_right (hnone _)

/-- What an access falls on is a half or a word. -/
theorem length_of_decode {offset : Word} {length : Nat} (hmoves : decode offset length ≠ .dropped)
    (hknown : decode offset length ≠ .unknown) : length = 4 ∨ length = 8 := by
  obtain ⟨-, -, -, -, hlength, -⟩ := ((decode_eq_iff hmoves hknown).1 rfl).target_eq
  exact hlength

/-- An access that is neither empty nor misaligned is not dropped. -/
theorem decode_ne_dropped {offset : Word} {length : Nat} (hlength : length ≠ 0) (halign : offset.toNat % accessAlign = 0) :
    decode offset length ≠ .dropped := by
  rw [ne_eq, decode_eq_dropped_iff]
  omega

/-! ## One place for each target -/

/-- A target lies at one place. -/
theorem Target.IsAt.unique {offset length offset' length' : Nat} {t : Target} (h : t.IsAt offset length)
    (h' : t.IsAt offset' length') : offset = offset' ∧ length = length' := by
  cases t with
  | dropped => cases h
  | unknown => cases h
  | register r part =>
    obtain ⟨f, hf, hr, -, hpart⟩ := h
    obtain ⟨g, hg, hr', -, hpart'⟩ := h'
    cases Field.eq_of_mem_table hf hg (hr.trans hr'.symm)
    exact hpart.unique hpart'
  | slot name i part =>
    obtain ⟨f, hf, hname, -, hpart⟩ := h
    obtain ⟨g, hg, hname', -, hpart'⟩ := h'
    -- a queue is shown by one register
    have hone : ∀ r s : Register, r.ring? = some name → s.ring? = some name → r = s := by
      intro r s
      cases r <;> cases s <;> cases name <;> simp [Register.ring?]
    cases Field.eq_of_mem_table hf hg (hone _ _ hname hname')
    exact hpart.unique hpart'

/-- So exactly one access falls on a target that lies somewhere in the window. -/
theorem existsUnique_decode {offset length : Nat} {t : Target} (h : t.IsAt offset length) :
    ∃! access : Word × Nat, decode access.1 access.2 = t := by
  obtain ⟨f, hf, hcovers, -, -, -⟩ := h.target_eq
  have hend := Field.stop_le_of_mem_table hf
  have hlt := (Field.covers_iff.1 hcovers).2
  have hword : (UInt64.ofNat offset).toNat = offset := by
    rw [UInt64.toNat_ofNat']
    omega
  refine ⟨(UInt64.ofNat offset, length), decode_of_isAt ?_, ?_⟩
  · rwa [hword]
  · rintro ⟨offset', length'⟩ hfalls
    have hat : t.IsAt offset'.toNat length' := by
      refine (decode_eq_iff ?_ ?_).1 hfalls
      · rintro rfl
        cases h
      · rintro rfl
        cases h
    obtain ⟨hoffset, hlength⟩ := hat.unique h
    refine Prod.ext ?_ hlength
    apply UInt64.toNat_inj.1
    rw [hoffset, hword]

/-- Each part of a register lies somewhere: a register of four bytes has its whole, one of eight bytes its halves, too. -/
theorem Target.exists_isAt_register {r : Register} {part : Part} (hring : r.ring? = none)
    (hpart : part = .full ∨ r.width = 8) : ∃ offset length, (Target.register r part).IsAt offset length := by
  obtain ⟨f, hf, rfl⟩ := Field.exists_mem_table r
  have hwidth : f.width = f.register.width := by
    rw [Field.table_eq] at hf
    obtain ⟨s, -, rfl⟩ := List.mem_map.1 hf
    rfl
  rw [← hwidth] at hpart
  obtain ⟨offset, length, hat⟩ := part.exists_isAt f.offset hpart
  exact ⟨offset, length, f, hf, rfl, hring, hat⟩

/-- Each part of a slot does. -/
theorem Target.exists_isAt_slot (name : QueueName) {i : Nat} (hi : i < maxVirtines) (part : Part) :
    ∃ offset length, (Target.slot name i part).IsAt offset length := by
  obtain ⟨f, hf, hregister⟩ := Field.exists_mem_table name.register
  have hname : f.register.ring? = some name := by
    rw [hregister]
    cases name <;> rfl
  obtain ⟨offset, length, hat⟩ := part.exists_isAt (f.offset + slotWidth * i) (Or.inr rfl)
  exact ⟨offset, length, f, hf, hname, hi, hat⟩

/-! ## The end of the fields -/

/-- Four bytes at a multiple of four are a part of something, as far as there are fields. -/
theorem Target.exists_isAt_of_lt {offset : Nat} (halign : offset % accessAlign = 0) (hlt : offset < 0x688) :
    ∃ t : Target, t.IsAt offset 4 := by
  have hsum : (Register.all.map Register.width).sum = 0x688 := by decide
  obtain ⟨f, hf, hcovers⟩ : ∃ f ∈ Field.table, f.covers offset = true :=
    Field.exists_covers (Nat.zero_le offset) (by omega)
  obtain ⟨hbegin, hscalar, hring⟩ := Field.row_of_mem_table hf
  obtain ⟨hle, hend⟩ := Field.covers_iff.1 hcovers
  simp only [accessAlign, slotWidth, maxVirtines] at halign hbegin hring
  cases hname : f.register.ring? with
  | none =>
    obtain ⟨part, hat⟩ := Part.exists_isAt_four (hscalar hname) hbegin halign hle hend
    exact ⟨.register f.register part, f, hf, rfl, hname, hat⟩
  | some name =>
    have hwidth := hring (by rw [hname]; exact Option.some_ne_none name)
    have hslot : ∃ part : Part, part.IsAt (f.offset + 8 * ((offset - f.offset) / 8)) 8 offset 4 :=
      Part.exists_isAt_four (Or.inr rfl) (by omega) halign (by omega) (by omega)
    obtain ⟨part, hat⟩ := hslot
    exact ⟨.slot name ((offset - f.offset) / 8) part, f, hf, hname, by simp only [maxVirtines]; omega, hat⟩

/-- What lies somewhere lies in front of the end of the fields. -/
theorem Target.IsAt.lt_end {offset length : Nat} {t : Target} (h : t.IsAt offset length) : offset < 0x688 := by
  obtain ⟨f, hf, hcovers, -, -, -⟩ := h.target_eq
  exact Nat.lt_of_lt_of_le (Field.covers_iff.1 hcovers).2 (Field.stop_le_of_mem_table hf)

/-- An access is none where it is empty or misaligned. It falls on a part of a register, or of one of the slots of a ring, exactly
where that part lies, and everywhere else it is unknown. One access falls on each part of each register that is no ring, and on each
part of each slot. Every aligned access of four bytes falls on something in front of the end of the fields, and none behind it. -/
theorem decode_exact (offset : Word) (length : Nat) :
    (decode offset length = .dropped ↔ length = 0 ∨ offset.toNat % accessAlign ≠ 0) ∧
      (∀ r part, decode offset length = .register r part ↔
        ∃ f ∈ Field.table, f.register = r ∧ r.ring? = none ∧ part.IsAt f.offset f.width offset.toNat length) ∧
      (∀ name i part, decode offset length = .slot name i part ↔
        ∃ f ∈ Field.table, f.register.ring? = some name ∧ i < maxVirtines ∧
          part.IsAt (f.offset + slotWidth * i) slotWidth offset.toNat length) ∧
      (decode offset length = .unknown ↔
        length ≠ 0 ∧ offset.toNat % accessAlign = 0 ∧ ∀ t : Target, ¬t.IsAt offset.toNat length) ∧
      (∀ r part, r.ring? = none → part = .full ∨ r.width = 8 →
        ∃! access : Word × Nat, decode access.1 access.2 = .register r part) ∧
      (∀ name, ∀ i < maxVirtines, ∀ part, ∃! access : Word × Nat, decode access.1 access.2 = .slot name i part) ∧
      (offset.toNat % accessAlign = 0 → offset.toNat < 0x688 →
        (∃ r part, decode offset 4 = .register r part) ∨ ∃ name i part, decode offset 4 = .slot name i part) ∧
      (0x688 ≤ offset.toNat → decode offset length ≠ .dropped → decode offset length = .unknown) := by
  refine ⟨decode_eq_dropped_iff, fun _ _ => decode_eq_register_iff, fun _ _ _ => decode_eq_slot_iff,
    decode_eq_unknown_iff, ?_, ?_, ?_, ?_⟩
  · intro r part hring hpart
    obtain ⟨_, _, hat⟩ := Target.exists_isAt_register hring hpart
    exact existsUnique_decode hat
  · intro name i hi part
    obtain ⟨_, _, hat⟩ := Target.exists_isAt_slot name hi part
    exact existsUnique_decode hat
  · intro halign hlt
    obtain ⟨t, hat⟩ := Target.exists_isAt_of_lt halign hlt
    have hfalls := decode_of_isAt hat
    cases t with
    | dropped => cases hat
    | unknown => cases hat
    | register r part => exact Or.inl ⟨r, part, hfalls⟩
    | slot name i part => exact Or.inr ⟨name, i, part, hfalls⟩
  · intro hend hmoves
    rw [ne_eq, decode_eq_dropped_iff] at hmoves
    rcases decode_of_moves hmoves with hunknown | hat
    · exact hunknown
    · have hlt := hat.lt_end
      omega

end VirtineCleaning

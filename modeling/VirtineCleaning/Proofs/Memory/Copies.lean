import VirtineCleaning.Proofs.Memory.Contents

/-!
# Copies agree

The chunked copy, made of the reads and writes of any store, and the copy that a dense memory makes in one piece are the same
`Memmove`: each gives the target the bytes that the source had before, however the two lie to each other, and refuses a range that
does not lie inside before it moves a byte, the source first (`copies_agree`). The sums of the chunked copy wrap, but none of them
ever leaves the words (`copyRange?_eq`): both ends are checked as numbers first, and every chunk ends inside.
-/

namespace VirtineCleaning

/-- The word some bytes after another, if there is one: a sum that leaves the words has no value. -/
def Word.add? (address : Word) (n : Nat) : Option Word :=
  if address.toNat + n < UInt64.size then some (address + UInt64.ofNat n) else none

namespace ByteStore

/-! ## Moves -/

section

variable {μ : Type} [ByteStore μ] [LawfulStore μ]

/-- The outcome of a move of `length` bytes: there are none, the source or else the target is refused, or all are moved. -/
inductive Memmove (m : μ) (source target length : Word) : Except OutOfRange Unit × μ → Prop where
  | none (hlength : length = 0) : Memmove m source target length (.ok (), m)
  | sourceOutside (hlength : length ≠ 0) (hsource : (size m).toNat < source.toNat + length.toNat) :
      Memmove m source target length (.error ⟨source, length, size m⟩, m)
  | targetOutside (hlength : length ≠ 0) (hsource : source.toNat + length.toNat ≤ (size m).toNat)
      (htarget : (size m).toNat < target.toNat + length.toNat) :
      Memmove m source target length (.error ⟨target, length, size m⟩, m)
  | moved {n : μ} (hlength : length ≠ 0) (hsource : source.toNat + length.toNat ≤ (size m).toNat)
      (htarget : target.toNat + length.toNat ≤ (size m).toNat) (h : Copied m n source.toNat target.toNat length.toNat) :
      Memmove m source target length (.ok (), n)

/-- A copy between ranges that lie inside copies. -/
theorem CopyCase.copied {m : μ} {source target length : Word} {r : Except OutOfRange Unit × μ}
    (h : CopyCase m source target length r) (hsource : source.toNat + length.toNat ≤ (size m).toNat)
    (htarget : target.toNat + length.toNat ≤ (size m).toNat) :
    ∃ n, r = (.ok (), n) ∧ Copied m n source.toNat target.toNat length.toNat := by
  cases h with
  | copies _ hcopied => exact ⟨_, rfl, hcopied⟩
  | refuses _ houtside => omega

/-- The chunked copy moves. -/
theorem copyRange_memmove (m : μ) (source target length : Word) :
    Memmove m source target length (copyRange m source target length) := by
  by_cases hlength : length = 0
  · rw [copyRange, if_pos hlength]
    exact .none hlength
  by_cases hsource : source.toNat + length.toNat ≤ (size m).toNat
  · by_cases htarget : target.toNat + length.toNat ≤ (size m).toNat
    · obtain ⟨n, hcopy, hcopied⟩ := (copyRange_case m source target length).copied hsource htarget
      rw [hcopy]
      exact .moved hlength hsource htarget hcopied
    · rw [copyRange, if_neg hlength, checkRange, if_pos hsource, checkRange, if_neg htarget]
      exact .targetOutside hlength hsource (Nat.lt_of_not_le htarget)
  · rw [copyRange, if_neg hlength, checkRange, if_neg hsource]
    exact .sourceOutside hlength (Nat.lt_of_not_le hsource)

end

/-! ## Memories of the same bytes -/

/-- Two memories, of one kind or of two, hold the same bytes. -/
structure SameBytes {μ ν : Type} [ByteStore μ] [LawfulStore μ] [ByteStore ν] [LawfulStore ν] (m : μ) (n : ν) : Prop where
  size_eq : size m = size n
  byte_eq : ∀ i, byte? m i = byte? n i

/-- Moves in memories of the same bytes answer the same, and leave memories of the same bytes. -/
theorem Memmove.agree {μ ν : Type} [ByteStore μ] [LawfulStore μ] [ByteStore ν] [LawfulStore ν] {m : μ} {n : ν}
    (h : SameBytes m n) {source target length : Word} {r : Except OutOfRange Unit × μ} {r' : Except OutOfRange Unit × ν}
    (hr : Memmove m source target length r) (hr' : Memmove n source target length r') :
    r.1 = r'.1 ∧ SameBytes r.2 r'.2 := by
  have hsize := h.size_eq
  cases hr with
  | none hlength =>
    cases hr' with
    | none => exact ⟨rfl, h⟩
    | _ => contradiction
  | sourceOutside hlength hsource =>
    rw [hsize] at hsource ⊢
    cases hr' with
    | none => contradiction
    | sourceOutside => exact ⟨rfl, h⟩
    | targetOutside _ hsource' => omega
    | moved _ hsource' => omega
  | targetOutside hlength hsource htarget =>
    rw [hsize] at hsource htarget ⊢
    cases hr' with
    | none => contradiction
    | sourceOutside _ hsource' => omega
    | targetOutside => exact ⟨rfl, h⟩
    | moved _ _ htarget' => omega
  | moved hlength hsource htarget hcopied =>
    rw [hsize] at hsource htarget
    cases hr' with
    | none => contradiction
    | sourceOutside _ hsource' => omega
    | targetOutside _ _ htarget' => omega
    | moved _ _ _ hcopied' =>
      refine ⟨rfl, ?_, ?_⟩
      · exact hcopied.size_eq.trans (hsize.trans hcopied'.size_eq.symm)
      · intro i
        rw [hcopied.byte_eq, hcopied'.byte_eq, h.byte_eq, h.byte_eq]

/-! ## Sums that stay in the words -/

section

variable {μ : Type} [ByteStore μ]

/-- `copyChunks` with sums that have no value where they leave the words. -/
def copyChunks? (m : μ) (source target : Word) (length : Nat) : Option (Except OutOfRange Unit × μ) :=
  if length = 0 then some (.ok (), m)
  else
    let n := min length copyChunk
    match read m source (UInt64.ofNat n) with
    | .error e => some (.error e, m)
    | .ok chunk =>
      match write m target chunk with
      | (.error e, m) => some (.error e, m)
      | (.ok (), m) => do
        let source ← source.add? n
        let target ← target.add? n
        copyChunks? m source target (length - n)
termination_by length
decreasing_by simp only [copyChunk] at *; omega

/-- `copyRange` with sums that have no value where they leave the words. -/
def copyRange? (m : μ) (source target length : Word) : Option (Except OutOfRange Unit × μ) :=
  if length = 0 then some (.ok (), m)
  else
    match checkRange (size m) source length with
    | .error e => some (.error e, m)
    | .ok () =>
      match checkRange (size m) target length with
      | .error e => some (.error e, m)
      | .ok () => do
        let targetEnd ← target.add? length.toNat
        let sourceEnd ← source.add? length.toNat
        if source < targetEnd ∧ target < sourceEnd then
          match read m source length with
          | .error e => some (.error e, m)
          | .ok bytes => some (write m target bytes)
        else copyChunks? m source target length.toNat

/-- A place that a memory still reaches is a word. -/
theorem add?_of_le {address : Word} (bound : Word) {n : Nat} (h : address.toNat + n ≤ bound.toNat) :
    address.add? n = some (address + UInt64.ofNat n) :=
  if_pos (Nat.lt_of_le_of_lt h bound.toNat_lt)

variable [LawfulStore μ]

/-- Every chunk ends inside, so no sum leaves the words in front of the next one. -/
theorem copyChunks?_eq (m : μ) (source target : Word) (length : Nat) :
    source.toNat + length ≤ (size m).toNat → target.toNat + length ≤ (size m).toNat →
      copyChunks? m source target length = some (copyChunks m source target length) := by
  fun_induction copyChunks m source target length with
  | case1 m source target =>
    intro _ _
    rw [copyChunks?, if_pos rfl]
  | case2 m source target length hlength n e hread =>
    intro _ _
    rw [copyChunks?, if_neg hlength]
    dsimp only
    rw [hread]
  | case3 m source target length hlength n chunk hread e o hwrite =>
    intro _ _
    rw [copyChunks?, if_neg hlength]
    dsimp only
    rw [hread]
    dsimp only
    rw [hwrite]
  | case4 m source target length hlength n chunk hread o hwrite ih =>
    intro hsource htarget
    obtain ⟨_, _, hok, hdone, hcopied⟩ := copied_chunk m source target length hsource htarget
    rw [hread] at hok
    cases hok
    rw [hwrite] at hdone
    cases hdone
    have hle : n ≤ length := Nat.min_le_left _ _
    have hsource' : source.toNat + n ≤ (size m).toNat := by omega
    have htarget' : target.toNat + n ≤ (size m).toNat := by omega
    rw [toNat_add_ofNat (size m) hsource', toNat_add_ofNat (size m) htarget', hcopied.size_eq] at ih
    have hrest := ih (by omega) (by omega)
    rw [copyChunks?, if_neg hlength]
    dsimp only
    rw [hread]
    dsimp only
    rw [hwrite]
    dsimp only
    rw [add?_of_le (size m) hsource', add?_of_le (size m) htarget']
    exact hrest

/-- No sum of a chunked copy leaves the words, wherever its ranges lie. -/
theorem copyRange?_eq (m : μ) (source target length : Word) :
    copyRange? m source target length = some (copyRange m source target length) := by
  unfold copyRange? copyRange checkRange
  by_cases hlength : length = 0
  · rw [if_pos hlength, if_pos hlength]
  rw [if_neg hlength, if_neg hlength]
  by_cases hsource : source.toNat + length.toNat ≤ (size m).toNat
  · by_cases htarget : target.toNat + length.toNat ≤ (size m).toNat
    · obtain ⟨bytes, hread, -⟩ := LawfulStore.read_inside m source length hsource
      have htargetEnd : target.add? length.toNat = some (target + length) := by
        rw [add?_of_le (size m) htarget, UInt64.ofNat_toNat]
      have hsourceEnd : source.add? length.toNat = some (source + length) := by
        rw [add?_of_le (size m) hsource, UInt64.ofNat_toNat]
      simp only [if_pos hsource, if_pos htarget, htargetEnd, hsourceEnd, Option.bind_eq_bind, Option.bind_some, hread]
      rw [copyChunks?_eq m source target length.toNat hsource htarget, apply_ite some]
    · rw [if_pos hsource, if_neg htarget]
  · rw [if_neg hsource]

end

end ByteStore

/-! ## The copy in one piece -/

namespace DenseMemory

open ByteStore

/-- A refused write of bytes that fill a range names the range. -/
theorem write_eq_error (d : DenseMemory) {address length : Word} {bytes : ByteArray} (hbytes : bytes.size = length.toNat)
    (h : d.size.toNat < address.toNat + length.toNat) :
    d.write address bytes = (.error ⟨address, length, d.size⟩, d) := by
  rw [← hbytes, ← d.size_data] at h
  rw [write, dif_neg (Nat.not_le_of_lt h), hbytes, UInt64.ofNat_toNat]

/-- The copy in one piece moves. -/
theorem copy_memmove (d : DenseMemory) (source target length : Word) :
    Memmove d source target length (d.copy source target length) := by
  by_cases hlength : length = 0
  · rw [copy, if_pos hlength]
    exact .none hlength
  by_cases hsource : source.toNat + length.toNat ≤ d.size.toNat
  · by_cases htarget : target.toNat + length.toNat ≤ d.size.toNat
    · obtain ⟨n, hcopy, hcopied⟩ := (copyWhole_case d source target length).copied hsource htarget
      have heq : d.copy source target length = (.ok (), n) := hcopy
      rw [heq]
      exact .moved hlength hsource htarget hcopied
    · obtain ⟨bytes, hread, hbytes, -⟩ := d.read_inside source length hsource
      rw [copy, if_neg hlength, hread]
      dsimp only
      rw [d.write_eq_error hbytes (Nat.lt_of_not_le htarget)]
      exact .targetOutside hlength hsource (Nat.lt_of_not_le htarget)
  · rw [copy, if_neg hlength, d.read_eq_error (Nat.lt_of_not_le hsource)]
    exact .sourceOutside hlength (Nat.lt_of_not_le hsource)

/-- A copy that moves bytes reaches only indices of the array. -/
theorem data_of_copy (d : DenseMemory) {source target length : Word} (hlength : length ≠ 0)
    (h : (d.copy source target length).1 = .ok ()) :
    source.toNat + length.toNat ≤ d.data.size ∧ target.toNat + length.toNat ≤ d.data.size := by
  have hmove := d.copy_memmove source target length
  rw [d.size_data]
  generalize d.copy source target length = r at h hmove
  cases hmove with
  | none hnone => exact absurd hnone hlength
  | sourceOutside => cases h
  | targetOutside => cases h
  | moved _ hsource htarget => exact ⟨hsource, htarget⟩

end DenseMemory

namespace ByteStore

/-! ## The two copies -/

/-- Memories of the same bytes, of which one copies in chunks and the other in one piece, make the same moves: both copies refuse
the same ranges with the same answer, and else both memories hold the same bytes again. No sum of the first leaves the words, and
the second reaches only indices of its array. -/
theorem copies_agree {μ : Type} [ByteStore μ] [LawfulStore μ] {m : μ} {d : DenseMemory} (h : SameBytes m d)
    (source target length : Word) :
    let chunked := copyRange m source target length
    let whole := VirtineMemory.copy d source target length
    Memmove m source target length chunked ∧ Memmove d source target length whole ∧
      chunked.1 = whole.1 ∧ SameBytes chunked.2 whole.2 ∧
      copyRange? m source target length = some chunked ∧
      (length ≠ 0 → whole.1 = .ok () →
        source.toNat + length.toNat ≤ d.data.size ∧ target.toNat + length.toNat ≤ d.data.size) := by
  have hchunked := copyRange_memmove m source target length
  have hwhole := d.copy_memmove source target length
  obtain ⟨hanswer, hbytes⟩ := hchunked.agree h hwhole
  exact ⟨hchunked, hwhole, hanswer, hbytes, copyRange?_eq m source target length, d.data_of_copy⟩

/-- Six bytes, of which four are copied onto their own end. -/
theorem copies_agree_overlapping :
    let d : DenseMemory := ⟨6, ⟨#[1, 2, 3, 4, 5, 6]⟩, rfl⟩
    SameBytes (PlainMemory.mk d) d ∧ (copyRange (PlainMemory.mk d) 0 2 4).1 = .ok () ∧
      ∀ i, byte? (copyRange (PlainMemory.mk d) 0 2 4).2 i = #[1, 2, 1, 2, 3, 4][i]? := by
  intro d
  have hsame : SameBytes (PlainMemory.mk d) d := ⟨rfl, fun _ => rfl⟩
  have hok : (d.copy 0 2 4).1 = .ok () := by rfl
  have hdata : (d.copy 0 2 4).2.data.data = #[1, 2, 1, 2, 3, 4] := by decide +kernel
  obtain ⟨-, -, hanswer, hbytes, -⟩ := copies_agree hsame 0 2 4
  refine ⟨hsame, hanswer.trans hok, ?_⟩
  intro i
  rw [hbytes.byte_eq, ← hdata]
  rfl

end ByteStore

end VirtineCleaning

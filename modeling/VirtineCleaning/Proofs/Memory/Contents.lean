import Mathlib.Data.Set.BooleanAlgebra
import Mathlib.Data.UInt
import Mathlib.Order.CompletePartialOrder
import Mathlib.Order.Interval.Set.Basic
import VirtineCleaning.Memory.Dense

/-!
# What copies do to the bytes of a memory

A memory is seen here as a function of the place. The laws of a store say what its reads and writes mean for this function, and what
a copy means follows from them, whether it is made in one piece or in chunks (`copy_case`): an empty copy does nothing, a copy
between ranges that both lie inside gives the target the bytes that the source had before, even where the two overlap, and any other
copy fails and changes nothing.
-/

namespace VirtineCleaning

/-- The places of a range. -/
def places (address length : Word) : Set Nat := Set.Ico address.toNat (address.toNat + length.toNat)

theorem mem_places {address length : Word} {i : Nat} :
    i ∈ places address length ↔ address.toNat ≤ i ∧ i < address.toNat + length.toNat := Set.mem_Ico

/-- Ranges of which one ends before the other begins are apart. -/
theorem disjoint_places {a b m n : Word} (h : a.toNat + m.toNat ≤ b.toNat ∨ b.toNat + n.toNat ≤ a.toNat) :
    Disjoint (places a m) (places b n) := by
  rw [Set.disjoint_left]
  intro i ha hb
  rw [mem_places] at ha hb
  omega

/-- A store whose reads and writes are those of a sequence of bytes, and which refuses accesses that do not lie inside. -/
class LawfulStore (μ : Type) [ByteStore μ] where
  /-- The byte at a place; none outside. -/
  byte? : μ → Nat → Option UInt8
  read_inside : ∀ (m : μ) (address length : Word), address.toNat + length.toNat ≤ (ByteStore.size m).toNat →
    ∃ bytes, ByteStore.read m address length = .ok bytes ∧ bytes.size = length.toNat ∧
      ∀ i < length.toNat, bytes.data[i]? = byte? m (address.toNat + i)
  read_outside : ∀ (m : μ) (address length : Word), (ByteStore.size m).toNat < address.toNat + length.toNat →
    ∃ e, ByteStore.read m address length = .error e
  write_inside : ∀ (m : μ) (address : Word) (bytes : ByteArray),
    address.toNat + bytes.size ≤ (ByteStore.size m).toNat →
      ∃ n, ByteStore.write m address bytes = (.ok (), n) ∧ ByteStore.size n = ByteStore.size m ∧
        ∀ i, byte? n i =
          if address.toNat ≤ i ∧ i < address.toNat + bytes.size then bytes.data[i - address.toNat]? else byte? m i
  write_outside : ∀ (m : μ) (address : Word) (bytes : ByteArray),
    (ByteStore.size m).toNat < address.toNat + bytes.size → ∃ e, ByteStore.write m address bytes = (.error e, m)

export LawfulStore (byte?)

namespace ByteStore

variable {μ : Type} [ByteStore μ]

/-- Copies `length` bytes in one piece; an empty copy always succeeds. -/
def copyWhole (m : μ) (source target length : Word) : Except OutOfRange Unit × μ :=
  if length = 0 then (.ok (), m)
  else
    match read m source length with
    | .error e => (.error e, m)
    | .ok bytes => write m target bytes

variable [LawfulStore μ]

/-- One memory is another after `length` bytes were copied from `source` to `target`. -/
structure Copied (m n : μ) (source target length : Nat) : Prop where
  size_eq : size n = size m
  byte_eq : ∀ i, byte? n i = if target ≤ i ∧ i < target + length then byte? m (source + (i - target)) else byte? m i

namespace Copied

variable {m n o : μ} {source target length more : Nat}

/-- Nothing is copied by a copy of no bytes. -/
theorem none (m : μ) (source target : Nat) : Copied m m source target 0 where
  size_eq := rfl
  byte_eq i := by
    rw [if_neg]
    omega

/-- A copy goes on where another ended, if neither end of it reaches into the other. -/
theorem trans (h : Copied m n source target length) (k : Copied n o (source + length) (target + length) more)
    (hapart : source + (length + more) ≤ target ∨ target + (length + more) ≤ source) :
    Copied m o source target (length + more) where
  size_eq := k.size_eq.trans h.size_eq
  byte_eq i := by
    have hunread : ∀ j, length ≤ j → j < length + more → byte? n (source + j) = byte? m (source + j) := by
      intro j hlow hhigh
      rw [h.byte_eq, if_neg]
      omega
    rw [k.byte_eq]
    by_cases hsecond : target + length ≤ i ∧ i < target + length + more
    · have hplace : source + length + (i - (target + length)) = source + (i - target) := by omega
      rw [if_pos hsecond, hplace, hunread _ (by omega) (by omega), if_pos (by omega)]
    · rw [if_neg hsecond, h.byte_eq]
      by_cases hfirst : target ≤ i ∧ i < target + length
      · rw [if_pos hfirst, if_pos (by omega)]
      · rw [if_neg hfirst, if_neg (by omega)]

end Copied

/-- Bytes that are read from one range and written to another are copied. -/
theorem copied_read_write (m : μ) (source target length : Word)
    (hsource : source.toNat + length.toNat ≤ (size m).toNat) (htarget : target.toNat + length.toNat ≤ (size m).toNat) :
    ∃ bytes n, read m source length = .ok bytes ∧ write m target bytes = (.ok (), n) ∧
      Copied m n source.toNat target.toNat length.toNat := by
  obtain ⟨bytes, hread, hlength, hbytes⟩ := LawfulStore.read_inside m source length hsource
  rw [← hlength] at htarget
  obtain ⟨n, hwrite, hsize, hwritten⟩ := LawfulStore.write_inside m target bytes htarget
  refine ⟨bytes, n, hread, hwrite, hsize, ?_⟩
  intro i
  rw [hwritten, hlength]
  by_cases hi : target.toNat ≤ i ∧ i < target.toNat + length.toNat
  · rw [if_pos hi, if_pos hi]
    exact hbytes _ (by omega)
  · rw [if_neg hi, if_neg hi]

/-! ## Copies in chunks -/

/-- A place some bytes further on, which a memory still reaches. -/
theorem toNat_add_ofNat {address : Word} (bound : Word) {n : Nat} (h : address.toNat + n ≤ bound.toNat) :
    (address + UInt64.ofNat n).toNat = address.toNat + n := by
  have hbound := bound.toNat_lt
  have hn : n < 2 ^ 64 := by omega
  rw [UInt64.toNat_add, UInt64.toNat_ofNat', Nat.mod_eq_of_lt hn, Nat.mod_eq_of_lt (by omega)]

/-- A chunk is never longer than what is left, so it lies inside with it and is copied. -/
theorem copied_chunk (m : μ) (source target : Word) (length : Nat) (hsource : source.toNat + length ≤ (size m).toNat)
    (htarget : target.toNat + length ≤ (size m).toNat) :
    let n := min length copyChunk
    ∃ bytes o, read m source (UInt64.ofNat n) = .ok bytes ∧ write m target bytes = (.ok (), o) ∧
      Copied m o source.toNat target.toNat n := by
  intro n
  have hle : n ≤ length := Nat.min_le_left _ _
  have hn : (UInt64.ofNat n).toNat = n := by
    have hbound := (size m).toNat_lt
    rw [UInt64.toNat_ofNat', Nat.mod_eq_of_lt (by omega)]
  have hcopied := copied_read_write m source target (UInt64.ofNat n)
  rw [hn] at hcopied
  exact hcopied (by omega) (by omega)

/-- A copy in chunks between ranges that lie inside, apart from each other, copies the whole range. -/
theorem copied_copyChunks (m : μ) (source target : Word) (length : Nat) :
    source.toNat + length ≤ (size m).toNat → target.toNat + length ≤ (size m).toNat →
      source.toNat + length ≤ target.toNat ∨ target.toNat + length ≤ source.toNat →
        ∃ n, copyChunks m source target length = (.ok (), n) ∧ Copied m n source.toNat target.toNat length := by
  fun_induction copyChunks m source target length with
  | case1 m source target =>
    intro _ _ _
    exact ⟨m, rfl, .none m _ _⟩
  | case2 m source target length _ n e hread =>
    intro hsource htarget _
    obtain ⟨_, _, hok, -⟩ := copied_chunk m source target length hsource htarget
    rw [hread] at hok
    cases hok
  | case3 m source target length _ n chunk hread e _ hwrite =>
    intro hsource htarget _
    obtain ⟨_, _, hok, hdone, -⟩ := copied_chunk m source target length hsource htarget
    rw [hread] at hok
    cases hok
    rw [hwrite] at hdone
    cases hdone
  | case4 m source target length _ n chunk hread m' hwrite ih =>
    intro hsource htarget hapart
    obtain ⟨_, _, hok, hdone, hcopied⟩ := copied_chunk m source target length hsource htarget
    rw [hread] at hok
    cases hok
    rw [hwrite] at hdone
    cases hdone
    have hle : n ≤ length := Nat.min_le_left _ _
    have hsource' : (source + UInt64.ofNat n).toNat = source.toNat + n := toNat_add_ofNat (size m) (by omega)
    have htarget' : (target + UInt64.ofNat n).toNat = target.toNat + n := toNat_add_ofNat (size m) (by omega)
    rw [hsource', htarget', hcopied.size_eq] at ih
    obtain ⟨o, hrest, hcopied'⟩ := ih (by omega) (by omega) (by omega)
    have hwhole := hcopied.trans hcopied' (by omega)
    rw [Nat.add_sub_cancel' hle] at hwhole
    exact ⟨o, hrest, hwhole⟩

/-! ## Whole copies -/

/-- The ways of a copy: there is nothing to copy, both ranges lie inside, or one of them does not. -/
inductive CopyCase (m : μ) (source target length : Word) : Except OutOfRange Unit × μ → Prop where
  | copies {n : μ} (hinside : length = 0 ∨ source.toNat + length.toNat ≤ (size m).toNat ∧
        target.toNat + length.toNat ≤ (size m).toNat)
      (h : Copied m n source.toNat target.toNat length.toNat) : CopyCase m source target length (.ok (), n)
  | refuses {e : OutOfRange} (hlength : length ≠ 0)
      (houtside : (size m).toNat < source.toNat + length.toNat ∨ (size m).toNat < target.toNat + length.toNat) :
      CopyCase m source target length (.error e, m)

theorem copyCase_none (m : μ) (source target : Word) : CopyCase m source target 0 (.ok (), m) :=
  .copies (Or.inl rfl) (.none m _ _)

theorem copyWhole_case (m : μ) (source target length : Word) :
    CopyCase m source target length (copyWhole m source target length) := by
  unfold copyWhole
  by_cases hlength : length = 0
  · subst hlength
    exact copyCase_none m source target
  rw [if_neg hlength]
  by_cases hsource : source.toNat + length.toNat ≤ (size m).toNat
  · by_cases htarget : target.toNat + length.toNat ≤ (size m).toNat
    · obtain ⟨bytes, n, hread, hwrite, hcopied⟩ := copied_read_write m source target length hsource htarget
      rw [hread]
      dsimp only
      rw [hwrite]
      exact .copies (Or.inr ⟨hsource, htarget⟩) hcopied
    · obtain ⟨bytes, hread, hsize, -⟩ := LawfulStore.read_inside m source length hsource
      obtain ⟨e, hwrite⟩ := LawfulStore.write_outside m target bytes (by omega)
      rw [hread]
      dsimp only
      rw [hwrite]
      exact .refuses hlength (Or.inr (Nat.lt_of_not_le htarget))
  · obtain ⟨e, hread⟩ := LawfulStore.read_outside m source length (Nat.lt_of_not_le hsource)
    rw [hread]
    exact .refuses hlength (Or.inl (Nat.lt_of_not_le hsource))

/-- A copy comes out in one of these ways, in one piece or by chunks. -/
theorem copyRange_case (m : μ) (source target length : Word) :
    CopyCase m source target length (copyRange m source target length) := by
  unfold copyRange checkRange
  by_cases hlength : length = 0
  · subst hlength
    exact copyCase_none m source target
  rw [if_neg hlength]
  by_cases hsource : source.toNat + length.toNat ≤ (size m).toNat
  · rw [if_pos hsource]
    dsimp only
    by_cases htarget : target.toNat + length.toNat ≤ (size m).toNat
    · rw [if_pos htarget]
      dsimp only
      by_cases hoverlap : source < target + length ∧ target < source + length
      · rw [if_pos hoverlap]
        obtain ⟨bytes, n, hread, hwrite, hcopied⟩ := copied_read_write m source target length hsource htarget
        rw [hread]
        dsimp only
        rw [hwrite]
        exact .copies (Or.inr ⟨hsource, htarget⟩) hcopied
      · rw [if_neg hoverlap]
        -- the ends of ranges that lie inside do not wrap, so the comparison is one of numbers
        have hapart : source.toNat + length.toNat ≤ target.toNat ∨ target.toNat + length.toNat ≤ source.toNat := by
          have hbound := (size m).toNat_lt
          rw [UInt64.lt_iff_toNat_lt, UInt64.lt_iff_toNat_lt, UInt64.toNat_add, UInt64.toNat_add,
            Nat.mod_eq_of_lt (by omega), Nat.mod_eq_of_lt (by omega)] at hoverlap
          omega
        obtain ⟨n, heq, hcopied⟩ := copied_copyChunks m source target length.toNat hsource htarget hapart
        rw [heq]
        exact .copies (Or.inr ⟨hsource, htarget⟩) hcopied
    · rw [if_neg htarget]
      exact .refuses hlength (Or.inr (Nat.lt_of_not_le htarget))
  · rw [if_neg hsource]
    exact .refuses hlength (Or.inl (Nat.lt_of_not_le hsource))

end ByteStore

/-! ## Memories -/

/-- A memory whose bytes are those of a lawful store, and which copies in chunks, as by default, or in one piece. -/
class LawfulMemory (μ : Type) [VirtineMemory μ] extends LawfulStore μ where
  copy_eq : (∀ (m : μ) (source target length : Word), VirtineMemory.copy m source target length =
      ByteStore.copyRange m source target length) ∨
    ∀ (m : μ) (source target length : Word), VirtineMemory.copy m source target length =
      ByteStore.copyWhole m source target length

/-- However a memory copies, its copies come out the same. -/
theorem VirtineMemory.copy_case {μ : Type} [VirtineMemory μ] [LawfulMemory μ] (m : μ) (source target length : Word) :
    ByteStore.CopyCase m source target length (VirtineMemory.copy m source target length) := by
  rcases LawfulMemory.copy_eq (μ := μ) with heq | heq
  · rw [heq]
    exact ByteStore.copyRange_case m source target length
  · rw [heq]
    exact ByteStore.copyWhole_case m source target length

namespace DenseMemory

/-- Bytes written into an array show where they were written, and the others stay. -/
theorem getElem?_copySlice {data bytes : ByteArray} {start : Nat} (h : start + bytes.size ≤ data.size) (i : Nat) :
    (bytes.copySlice 0 data start bytes.size).data[i]? =
      if start ≤ i ∧ i < start + bytes.size then bytes.data[i - start]? else data.data[i]? := by
  have hbefore : (data.data.extract 0 start).size = start := by
    rw [Array.size_extract, ByteArray.size_data]
    omega
  have hwritten : bytes.data.extract 0 (0 + bytes.size) = bytes.data := by
    rw [Nat.zero_add, ← ByteArray.size_data, Array.extract_size]
  simp only [ByteArray.copySlice, hwritten, Array.getElem?_append, Array.size_append, hbefore, ByteArray.size_data,
    Nat.sub_zero, Nat.min_self, Array.getElem?_extract]
  by_cases hlow : i < start
  · rw [if_pos (by omega), if_pos hlow, if_pos (by omega), Nat.zero_add, if_neg (by omega)]
  · by_cases hhigh : i < start + bytes.size
    · rw [if_pos hhigh, if_neg hlow, if_pos ⟨Nat.le_of_not_lt hlow, hhigh⟩]
    · have hplace : start + bytes.size + (i - (start + bytes.size)) = i := by omega
      have hout : ¬(start ≤ i ∧ i < start + bytes.size) := fun hi => hhigh hi.2
      rw [if_neg hhigh, if_neg hout, hplace]
      by_cases hsize : i < data.size
      · rw [if_pos (by omega)]
      · rw [if_neg (by omega), Array.getElem?_eq_none (by rw [ByteArray.size_data]; omega)]

/-- What lies inside is read. -/
theorem read_inside (m : DenseMemory) (address length : Word) (h : address.toNat + length.toNat ≤ m.size.toNat) :
    ∃ bytes, m.read address length = .ok bytes ∧ bytes.size = length.toNat ∧
      ∀ i < length.toNat, bytes.data[i]? = m.data.data[address.toNat + i]? := by
  have hdata := m.size_data
  refine ⟨m.data.extract address.toNat (address.toNat + length.toNat), ?_, ?_, ?_⟩
  · rw [read, checkRange, if_pos h]
    rfl
  · rw [ByteArray.size_extract]
    omega
  · intro i hi
    rw [ByteArray.data_extract, Array.getElem?_extract, if_pos]
    rw [ByteArray.size_data]
    omega

/-- A refused read names the range. -/
theorem read_eq_error (m : DenseMemory) {address length : Word} (h : m.size.toNat < address.toNat + length.toNat) :
    m.read address length = .error ⟨address, length, m.size⟩ := by
  rw [read, checkRange, if_neg (Nat.not_le_of_lt h)]
  rfl

theorem read_outside (m : DenseMemory) (address length : Word) (h : m.size.toNat < address.toNat + length.toNat) :
    ∃ e, m.read address length = .error e := ⟨_, m.read_eq_error h⟩

/-- What lies inside is written, and nothing else. -/
theorem write_inside (m : DenseMemory) (address : Word) (bytes : ByteArray)
    (h : address.toNat + bytes.size ≤ m.size.toNat) :
    ∃ n, m.write address bytes = (.ok (), n) ∧ n.size = m.size ∧
      ∀ i, n.data.data[i]? = if address.toNat ≤ i ∧ i < address.toNat + bytes.size then
        bytes.data[i - address.toNat]? else m.data.data[i]? := by
  rw [← m.size_data] at h
  refine ⟨m.put address.toNat bytes h, ?_, rfl, ?_⟩
  · rw [write, dif_pos h]
  · exact getElem?_copySlice h

theorem write_outside (m : DenseMemory) (address : Word) (bytes : ByteArray)
    (h : m.size.toNat < address.toNat + bytes.size) : ∃ e, m.write address bytes = (.error e, m) := by
  rw [← m.size_data] at h
  exact ⟨_, dif_neg (Nat.not_le_of_lt h)⟩

/-- A dense memory is an array of bytes. A handle that shares one has the same operations. -/
instance : LawfulMemory DenseMemory where
  byte? m i := m.data.data[i]?
  read_inside := read_inside
  read_outside := read_outside
  write_inside := write_inside
  write_outside := write_outside
  copy_eq := Or.inr fun _ _ _ _ => rfl

end DenseMemory

namespace PlainMemory

instance : LawfulMemory PlainMemory where
  byte? m i := m.bytes.data.data[i]?
  read_inside m := m.bytes.read_inside
  read_outside m := m.bytes.read_outside
  write_inside m address bytes h := by
    obtain ⟨n, hwrite, hsize, hbytes⟩ := m.bytes.write_inside address bytes h
    refine ⟨⟨n⟩, ?_, hsize, hbytes⟩
    simp only [ByteStore.write, hwrite]
  write_outside m address bytes h := by
    obtain ⟨e, hwrite⟩ := m.bytes.write_outside address bytes h
    refine ⟨e, ?_⟩
    simp only [ByteStore.write, hwrite]
  copy_eq := Or.inl fun _ _ _ _ => rfl

end PlainMemory

end VirtineCleaning

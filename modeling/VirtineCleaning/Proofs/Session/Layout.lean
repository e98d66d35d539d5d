import Mathlib.Data.UInt
import VirtineCleaning.Proofs.Device.Restoration
import VirtineCleaning.Session.Basic

/-!
# Where a session puts its virtines

A layout exists exactly if the snapshot and all virtines, each on pages of its own, fit into the memory (`of_inside`, `of_outside`).
None of its addresses wraps or is zero, and the virtines lie inside the memory, apart from the snapshot and from each other. So the
session can prepare its memory, and it finds its virtines verified once each of them holds the snapshot.
-/

namespace VirtineCleaning.Session

/-- The distance from one virtine to the next as a number: the size of the snapshot, of one byte at least, in whole pages. -/
def Options.stride (o : Options) : Nat := (max 1 o.snapshotSize.toNat + 4095) / 4096 * 4096

namespace Options

theorem stride_pos (o : Options) : 0 < o.stride := by
  unfold stride
  omega

/-- A virtine lies within its stride. -/
theorem size_le_stride (o : Options) : o.snapshotSize.toNat ≤ o.stride := by
  unfold stride
  omega

end Options

/-- A number that can be rounded up to whole pages without wrapping is. -/
theorem toNat_alignUp {value : Word} (h : value.toNat ≤ 2 ^ 64 - 4096) :
    (alignUp value pageSize).toNat = (value.toNat + 4095) / 4096 * 4096 := by
  have hpage : pageSize.toNat = 4096 := rfl
  have hwhole : value % pageSize = 0 ↔ value.toNat % 4096 = 0 := by
    rw [← UInt64.toNat_inj, UInt64.toNat_mod, hpage]
    rfl
  unfold alignUp
  rw [UInt64.toNat_mul, hpage]
  by_cases hzero : value % pageSize = 0
  · have hmod := hwhole.1 hzero
    rw [if_pos hzero, UInt64.toNat_div, hpage]
    omega
  · have hmod := mt hwhole.2 hzero
    rw [if_neg hzero, UInt64.toNat_add, UInt64.toNat_div, hpage, UInt64.toNat_one]
    omega

/-- The stride of a layout comes to that number. -/
theorem toNat_stride {o : Options} (h : o.snapshotSize.toNat ≤ 2 ^ 64 - 4096) :
    (alignUp (max 1 o.snapshotSize) pageSize).toNat = o.stride := by
  have hmax : (max 1 o.snapshotSize).toNat = max 1 o.snapshotSize.toNat := by rw [UInt64.toNat_max, UInt64.toNat_one]
  rw [toNat_alignUp (by omega), hmax, Options.stride]

namespace Layout

/-- A layout that leaves room in a memory for the snapshot and all virtines. -/
structure Fits (l : Layout) (o : Options) (memorySize : Word) : Prop where
  stride_eq : l.stride.toNat = o.stride
  base_eq : l.base.toNat = o.stride
  inside : (o.virtines.toNat + 1) * o.stride ≤ memorySize.toNat

variable {c : Config} {o : Options}

/-- What becomes of a layout: its end leaves the words, or lies past the memory, which the refusal tells, or the layout fits. -/
inductive Case (c : Config) (o : Options) : Except LayoutError Layout → Prop where
  | overflows (h : 2 ^ 64 ≤ (o.virtines.toNat + 1) * o.stride) : Case c o (.error .overflow)
  | tooLarge {needed : Word} (hneeded : needed.toNat = (o.virtines.toNat + 1) * o.stride)
      (h : c.memorySize.toNat < (o.virtines.toNat + 1) * o.stride) : Case c o (.error (.tooLarge o needed c.memorySize))
  | fits {l : Layout} (h : l.Fits o c.memorySize) : Case c o (.ok l)

theorem of_case (ho : o.snapshotSize.toNat ≤ 2 ^ 64 - 4096) : Case c o (of c o) := by
  have hstride := toNat_stride ho
  have hneeded := Nat.add_one_mul o.virtines.toNat o.stride
  have hsize : UInt64.size = 2 ^ 64 := rfl
  unfold of
  dsimp only
  rw [hstride, ← hneeded]
  by_cases hwraps : UInt64.size ≤ (o.virtines.toNat + 1) * o.stride
  · rw [if_pos hwraps]
    exact .overflows hwraps
  rw [if_neg hwraps]
  by_cases hlarge : c.memorySize.toNat < (o.virtines.toNat + 1) * o.stride
  · rw [if_pos hlarge]
    exact .tooLarge (UInt64.toNat_ofNat_of_lt' (Nat.lt_of_not_le hwraps)) hlarge
  · rw [if_neg hlarge]
    exact .fits ⟨hstride, hstride, Nat.le_of_not_lt hlarge⟩

/-- There is a layout where all fits. -/
theorem of_inside (ho : o.snapshotSize.toNat ≤ 2 ^ 64 - 4096)
    (h : (o.virtines.toNat + 1) * o.stride ≤ c.memorySize.toNat) : ∃ l, of c o = .ok l ∧ l.Fits o c.memorySize := by
  have hbound := c.memorySize.toNat_lt
  have hcase := of_case (c := c) ho
  generalize of c o = answer at hcase
  cases hcase with
  | overflows hwraps => omega
  | tooLarge _ hlarge => omega
  | fits hfits => exact ⟨_, rfl, hfits⟩

theorem of_outside (ho : o.snapshotSize.toNat ≤ 2 ^ 64 - 4096)
    (h : c.memorySize.toNat < (o.virtines.toNat + 1) * o.stride) : ∃ e, of c o = .error e := by
  have hcase := of_case (c := c) ho
  generalize of c o = answer at hcase
  cases hcase with
  | overflows => exact ⟨_, rfl⟩
  | tooLarge => exact ⟨_, rfl⟩
  | fits hfits => exact absurd hfits.inside (Nat.not_le_of_lt h)

/-- The words of the first virtines, in order. -/
def virtines (l : Layout) (count : Nat) : List Word := (List.range count).map fun i => l.virtine (UInt64.ofNat i)

theorem length_virtines (l : Layout) (count : Nat) : (l.virtines count).length = count := by
  rw [virtines, List.length_map, List.length_range]

theorem virtines_succ (l : Layout) (count : Nat) :
    l.virtines (count + 1) = l.virtines count ++ [l.virtine (UInt64.ofNat count)] := by
  rw [virtines, List.range_succ, List.map_append]
  rfl

end Layout

namespace Layout.Fits

variable {l : Layout} {o : Options} {memorySize : Word} {i j : Nat}

/-- No address of a virtine wraps. -/
theorem toNat_virtine (h : l.Fits o memorySize) (hi : i < o.virtines.toNat) :
    (l.virtine (UInt64.ofNat i)).toNat = (i + 1) * o.stride := by
  have hstep := Nat.add_one_mul i o.stride
  have hlast : (i + 1) * o.stride ≤ (o.virtines.toNat + 1) * o.stride := Nat.mul_le_mul_right _ (by omega)
  have hinside := h.inside
  have hbound := memorySize.toNat_lt
  have hindex : (UInt64.ofNat i).toNat = i := by
    have hcount := o.virtines.toNat_lt
    rw [UInt64.toNat_ofNat', Nat.mod_eq_of_lt (by omega)]
  -- the product and the sum are both at most the size of the memory
  rw [virtine, UInt64.toNat_add, UInt64.toNat_mul, hindex, h.base_eq, h.stride_eq]
  rw [Nat.mod_eq_of_lt (by omega), Nat.mod_eq_of_lt (by omega)]
  omega

/-- No virtine is at the address that is reserved. -/
theorem virtine_ne_zero (h : l.Fits o memorySize) (hi : i < o.virtines.toNat) : l.virtine (UInt64.ofNat i) ≠ 0 := by
  intro hzero
  have hplace := h.toNat_virtine hi
  have hpos : 0 < (i + 1) * o.stride := Nat.mul_pos (Nat.succ_pos i) o.stride_pos
  rw [hzero] at hplace
  exact absurd hplace.symm (Nat.ne_of_gt hpos)

/-- A virtine lies behind the snapshot and inside the memory. -/
theorem virtine_inside (h : l.Fits o memorySize) (hi : i < o.virtines.toNat) :
    o.snapshotSize.toNat ≤ (l.virtine (UInt64.ofNat i)).toNat ∧
      (l.virtine (UInt64.ofNat i)).toNat + o.snapshotSize.toNat ≤ memorySize.toNat := by
  have hsize := o.size_le_stride
  have hstep := Nat.add_one_mul i o.stride
  have hnext := Nat.add_one_mul (i + 1) o.stride
  have hlast : (i + 1 + 1) * o.stride ≤ (o.virtines.toNat + 1) * o.stride := Nat.mul_le_mul_right _ (by omega)
  have hinside := h.inside
  rw [h.toNat_virtine hi]
  omega

/-- So does the snapshot. -/
theorem snapshot_inside (h : l.Fits o memorySize) : o.snapshotSize.toNat ≤ memorySize.toNat := by
  have hsize := o.size_le_stride
  have hfirst : 1 * o.stride ≤ (o.virtines.toNat + 1) * o.stride := Nat.mul_le_mul_right _ (by omega)
  have hinside := h.inside
  omega

/-- Of two virtines one ends before the other begins. -/
theorem virtines_apart (h : l.Fits o memorySize) (hi : i < o.virtines.toNat) (hj : j < o.virtines.toNat) (hij : i < j) :
    (l.virtine (UInt64.ofNat i)).toNat + o.snapshotSize.toNat ≤ (l.virtine (UInt64.ofNat j)).toNat := by
  have hsize := o.size_le_stride
  have hnext := Nat.add_one_mul (i + 1) o.stride
  have hlater : (i + 1 + 1) * o.stride ≤ (j + 1) * o.stride := Nat.mul_le_mul_right _ (by omega)
  rw [h.toNat_virtine hi, h.toNat_virtine hj]
  omega

/-- The virtines lie apart from the snapshot and from each other. -/
theorem apart (h : l.Fits o memorySize) {addresses : List Address}
    (hwords : addresses.map (·.word) = l.virtines o.virtines.toNat) :
    Snapshot.Apart ⟨0, o.snapshotSize⟩ addresses := by
  have hnumber : ∀ a ∈ addresses, ∃ i < o.virtines.toNat, a.word = l.virtine (UInt64.ofNat i) := by
    intro a ha
    have hword : a.word ∈ l.virtines o.virtines.toNat := hwords ▸ List.mem_map_of_mem ha
    obtain ⟨i, hi, hplace⟩ := List.mem_map.1 hword
    exact ⟨i, List.mem_range.1 hi, hplace.symm⟩
  constructor
  · intro a ha
    obtain ⟨i, hi, hplace⟩ := hnumber a ha
    refine disjoint_places (Or.inl ?_)
    rw [hplace]
    dsimp only
    rw [UInt64.toNat_zero, Nat.zero_add]
    exact (h.virtine_inside hi).1
  · intro a ha b hb hab
    obtain ⟨i, hi, hfirst⟩ := hnumber a ha
    obtain ⟨j, hj, hsecond⟩ := hnumber b hb
    rw [hfirst, hsecond]
    rcases Nat.lt_trichotomy i j with hij | rfl | hij
    · exact disjoint_places (Or.inl (h.virtines_apart hi hj hij))
    · obtain ⟨_, _⟩ := a
      obtain ⟨_, _⟩ := b
      dsimp only at hfirst hsecond
      subst hfirst hsecond
      exact absurd rfl hab
    · exact disjoint_places (Or.inr (h.virtines_apart hj hi hij))

end Layout.Fits

/-! ## The bytes of a session -/

/-- Bytes that are made one by one are as many and show what they were made of. -/
theorem tabulateBytes_spec (n : Nat) (f : Nat → UInt8) :
    (tabulateBytes n f).size = n ∧ ∀ i < n, (tabulateBytes n f).data[i]? = some (f i) := by
  induction n with
  | zero => exact ⟨rfl, fun i hi => absurd hi i.not_lt_zero⟩
  | succ n ih =>
    obtain ⟨hsize, hbytes⟩ := ih
    have hsucc : tabulateBytes (n + 1) f = (tabulateBytes n f).push (f n) := Nat.fold_succ n _ _
    have hdata : (tabulateBytes (n + 1) f).data = (tabulateBytes n f).data.push (f n) := by
      rw [hsucc]
      rfl
    refine ⟨by rw [hsucc, ByteArray.size_push, hsize], ?_⟩
    intro i hi
    rw [hdata, Array.getElem?_push, ByteArray.size_data, hsize]
    by_cases hlast : i = n
    · rw [if_pos hlast, hlast]
    · rw [if_neg hlast, hbytes i (by omega)]

theorem size_snapshotPattern (size : Nat) : (snapshotPattern size).size = size := (tabulateBytes_spec size _).1

/-- A byte is repeated as often as asked for. -/
theorem data_replicateByte (n : Nat) (b : UInt8) : (replicateByte n b).data = Array.replicate n b := by
  fun_induction replicateByte n b with
  | case1 => rfl
  | case2 n hn half whole heven ih =>
    have hhalves : n / 2 + n / 2 = n := by omega
    rw [ByteArray.data_append, ih, Array.replicate_append_replicate, hhalves]
  | case3 n hn half whole hodd ih =>
    have hhalves : n / 2 + n / 2 + 1 = n := by omega
    rw [ByteArray.data_push, ByteArray.data_append, ih, Array.replicate_append_replicate, ← Array.replicate_succ, hhalves]

/-- A fresh memory shows zeros. -/
theorem byte?_zeros {size : Word} {i : Nat} (hi : i < size.toNat) : byte? (DenseMemory.zeros size) i = some 0 := by
  change (replicateByte size.toNat 0).data[i]? = some 0
  rw [data_replicateByte, Array.getElem?_replicate, if_pos hi]

/-- A byte of the snapshot. -/
def patternByte (i : Nat) : UInt8 := UInt8.ofNat (i % 251) ^^^ 0xa5

theorem getElem?_snapshotPattern {size i : Nat} (hi : i < size) : (snapshotPattern size).data[i]? = some (patternByte i) :=
  (tabulateBytes_spec size _).2 i hi

variable {l : Layout} {o : Options}

/-- A place lies in one of the virtines of a session. -/
def Layout.InVirtine (l : Layout) (o : Options) (i : Nat) : Prop :=
  ∃ j < o.virtines.toNat, (l.virtine (UInt64.ofNat j)).toNat ≤ i ∧ i < (l.virtine (UInt64.ofNat j)).toNat + o.snapshotSize.toNat

/-- The byte that a session leaves at a place: the snapshot lies in a stride of its own and in those of the virtines behind it, and
there are zeros between and behind them. -/
def Options.image (o : Options) (i : Nat) : UInt8 :=
  if i / o.stride ≤ o.virtines.toNat ∧ i % o.stride < o.snapshotSize.toNat then patternByte (i % o.stride) else 0

/-- A memory shows the snapshot of a session in the place that the device copies it from, and zeros outside of it and of all
virtines. -/
structure Primed (l : Layout) (o : Options) (m : DenseMemory) : Prop where
  snapshot : ∀ i < o.snapshotSize.toNat, byte? m i = some (patternByte i)
  rest : ∀ i < m.size.toNat, o.snapshotSize.toNat ≤ i → ¬l.InVirtine o i → byte? m i = some 0

/-- Virtines are filled without touching anything else. -/
theorem fillVirtines_inside {bytes : ByteArray} (hbytes : bytes.size = o.snapshotSize.toNat) (count index : Nat)
    (m : DenseMemory) (h : l.Fits o m.size) (hcount : index + count ≤ o.virtines.toNat) :
    ∃ n, fillVirtines l bytes count index m = .ok n ∧ n.size = m.size ∧ ∀ i, ¬l.InVirtine o i → byte? n i = byte? m i := by
  induction count generalizing index m with
  | zero => exact ⟨m, rfl, rfl, fun _ _ => rfl⟩
  | succ count ih =>
    obtain ⟨-, hinside⟩ := h.virtine_inside (i := index) (by omega)
    rw [← hbytes] at hinside
    obtain ⟨n, hwrite, hsize, hwritten⟩ := m.write_inside (l.virtine (UInt64.ofNat index)) bytes hinside
    rw [← hsize] at h
    obtain ⟨k, hfill, hkept, hsame⟩ := ih (index + 1) n h (by omega)
    refine ⟨k, ?_, hkept.trans hsize, ?_⟩
    · rw [fillVirtines, hwrite]
      exact hfill
    · intro i hi
      have houtside : ¬((l.virtine (UInt64.ofNat index)).toNat ≤ i ∧
          i < (l.virtine (UInt64.ofNat index)).toNat + bytes.size) := by
        rw [hbytes]
        exact fun hplace => hi ⟨index, by omega, hplace⟩
      rw [hsame i hi]
      exact (hwritten i).trans (if_neg houtside)

/-- The virtines lie in their strides behind the first one. -/
theorem Layout.Fits.inVirtine_iff {size : Word} (h : l.Fits o size) (i : Nat) :
    l.InVirtine o i ↔ i / o.stride ≠ 0 ∧ i / o.stride ≤ o.virtines.toNat ∧ i % o.stride < o.snapshotSize.toNat := by
  have hpos := o.stride_pos
  have hle := o.size_le_stride
  have hplace := Nat.div_add_mod' i o.stride
  constructor
  · rintro ⟨j, hj, hbegin, hlast⟩
    rw [h.toNat_virtine hj] at hbegin hlast
    have hindex : i / o.stride = j + 1 := by
      rw [Nat.div_eq_iff hpos]
      have hnext := Nat.add_one_mul (j + 1) o.stride
      omega
    rw [hindex] at hplace ⊢
    exact ⟨j.succ_ne_zero, hj, by omega⟩
  · rintro ⟨hindex, hj, hlast⟩
    obtain ⟨j, hsucc⟩ := Nat.exists_eq_succ_of_ne_zero hindex
    rw [hsucc] at hj hplace
    refine ⟨j, hj, ?_⟩
    rw [h.toNat_virtine hj]
    have hplace : (j + 1) * o.stride + i % o.stride = i := hplace
    omega

/-- A memory of zeros that the layout fits into can be prepared. -/
theorem prepare_of_fits {size : Word} (h : l.Fits o size) :
    ∃ m, prepare l o (.zeros size) = .ok m ∧ m.size = size ∧ Primed l o m := by
  have hpattern := size_snapshotPattern o.snapshotSize.toNat
  have hinside : (0 : Word).toNat + (snapshotPattern o.snapshotSize.toNat).size ≤ size.toNat := by
    rw [UInt64.toNat_zero, hpattern, Nat.zero_add]
    exact h.snapshot_inside
  obtain ⟨n, hwrite, hsize, hwritten⟩ := (DenseMemory.zeros size).write_inside 0 (snapshotPattern o.snapshotSize.toNat) hinside
  rw [UInt64.toNat_zero, hpattern, Nat.zero_add] at hwritten
  have hsize : n.size = size := hsize
  rw [← hsize] at h
  obtain ⟨k, hfill, hkept, hsame⟩ :=
    fillVirtines_inside (size_replicateByte o.snapshotSize.toNat dirtyByte) o.virtines.toNat 0 n h (by omega)
  refine ⟨k, ?_, hkept.trans hsize, ?_, ?_⟩
  · rw [prepare, hwrite]
    exact hfill
  · intro i hi
    have hclear : ¬l.InVirtine o i := by
      rintro ⟨j, hj, hbegin, -⟩
      obtain ⟨hbehind, -⟩ := h.virtine_inside hj
      omega
    rw [hsame i hclear]
    exact ((hwritten i).trans (if_pos ⟨i.zero_le, hi⟩)).trans (getElem?_snapshotPattern hi)
  · intro i hi hbehind hclear
    have hzero : i < size.toNat := by rwa [hkept, hsize] at hi
    rw [hsame i hclear]
    exact (hwritten i).trans ((if_neg (by omega)).trans (byte?_zeros hzero))

/-- A memory in which every virtine holds the snapshot is verified. -/
theorem verify_of_restored {m : DenseMemory} (h : l.Fits o m.size)
    (hbytes : ∀ i < o.virtines.toNat, ∀ j < o.snapshotSize.toNat,
      byte? m ((l.virtine (UInt64.ofNat i)).toNat + j) = some (patternByte j)) :
    verify l o m = true := by
  have hpattern := size_snapshotPattern o.snapshotSize.toNat
  unfold verify
  rw [List.all_eq_true]
  intro i hi
  obtain ⟨-, hinside⟩ := h.virtine_inside (List.mem_range.1 hi)
  rw [← m.size_data] at hinside
  have hsame : m.data.extract (l.virtine (UInt64.ofNat i)).toNat
      ((l.virtine (UInt64.ofNat i)).toNat + o.snapshotSize.toNat) = snapshotPattern o.snapshotSize.toNat := by
    refine ByteArray.ext (Array.ext_getElem? fun j => ?_)
    rw [ByteArray.data_extract, Array.getElem?_extract, ByteArray.size_data]
    by_cases hj : j < o.snapshotSize.toNat
    · rw [if_pos (by omega)]
      exact (hbytes i (List.mem_range.1 hi) j hj).trans (getElem?_snapshotPattern hj).symm
    · rw [if_neg (by omega), Array.getElem?_eq_none]
      rw [ByteArray.size_data, hpattern]
      omega
  dsimp only
  rw [hsame]
  exact beq_self_eq_true (snapshotPattern o.snapshotSize.toNat).data

end VirtineCleaning.Session

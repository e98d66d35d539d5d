import VirtineCleaning.Proofs.Memory.Copies
import VirtineCleaning.Proofs.Session.Layout

/-!
# The arithmetic of a layout

A layout is computed with words that wrap. The same computation is made here with sums and products that have no value where they leave
the words (`Layout.of?`, `Layout.virtine?`). For every snapshot that can be rounded up to whole pages it comes to the same, and refuses
the layouts whose end is no word (`layout_stays_in_words`): only the end is checked when the layout is made, and that is enough for the
address of every virtine to be computed anew without a check.
-/

namespace VirtineCleaning

/-- The product of two words, if there is one: a product that leaves the words has no value. -/
def Word.mul? (a b : Word) : Option Word := if a.toNat * b.toNat < UInt64.size then some (a * b) else none

theorem Word.mul?_of_lt {a b : Word} (h : a.toNat * b.toNat < UInt64.size) : a.mul? b = some (a * b) := if_pos h

theorem Word.mul?_of_le {a b : Word} (h : UInt64.size ≤ a.toNat * b.toNat) : a.mul? b = none := if_neg (Nat.not_lt_of_le h)

namespace Session

/-- `alignUp` with a sum and a product that have no value where they leave the words. -/
def alignUp? (value unit : Word) : Option Word := do
  let count ← if value % unit = 0 then some (value / unit) else (value / unit).add? 1
  count.mul? unit

/-- The first word behind a number of strides and one more. -/
def limit? (count stride : Word) : Option Word := do
  let last ← count.mul? stride
  last.add? stride.toNat

namespace Layout

/-- `of` with sums and products that have no value where they leave the words. Those of the end are checked; without a value are only
those that round up the stride. -/
def of? (c : Config) (o : Options) : Option (Except LayoutError Layout) := do
  let stride ← alignUp? (max 1 o.snapshotSize) pageSize
  match limit? o.virtines stride with
  | none => return .error .overflow
  | some needed =>
    if c.memorySize < needed then return .error (.tooLarge o needed c.memorySize)
    return .ok ⟨stride, stride⟩

/-- `virtine` with a sum and a product that have no value where they leave the words. -/
def virtine? (l : Layout) (index : Word) : Option Word := do
  let distance ← index.mul? l.stride
  l.base.add? distance.toNat

end Layout

/-- Rounding up does not leave the words below the last page. -/
theorem alignUp?_eq {value : Word} (h : value.toNat ≤ 2 ^ 64 - 4096) :
    alignUp? value pageSize = some (alignUp value pageSize) := by
  have hpage : pageSize.toNat = 4096 := rfl
  have hsize : UInt64.size = 2 ^ 64 := rfl
  have hdiv : (value / pageSize).toNat = value.toNat / 4096 := by rw [UInt64.toNat_div, hpage]
  unfold alignUp? alignUp
  by_cases hzero : value % pageSize = 0
  · rw [if_pos hzero, if_pos hzero]
    exact Word.mul?_of_lt (by rw [hdiv, hpage]; omega)
  · have hmod : value.toNat % 4096 ≠ 0 := by
      intro hmod
      refine hzero (UInt64.toNat_inj.mp ?_)
      rw [UInt64.toNat_mod, hpage, hmod, UInt64.toNat_zero]
    have hsucc : (value / pageSize).add? 1 = some (value / pageSize + 1) := if_pos (by rw [hdiv]; omega)
    rw [if_neg hzero, if_neg hzero, hsucc]
    refine Word.mul?_of_lt ?_
    rw [UInt64.toNat_add, hdiv, UInt64.toNat_one, hpage, Nat.mod_eq_of_lt (by omega)]
    omega

/-- The product alone may be a word where the end is none, but not the other way round. -/
theorem limit?_eq (count stride : Word) :
    limit? count stride =
      if UInt64.size ≤ (count.toNat + 1) * stride.toNat then none
      else some (UInt64.ofNat ((count.toNat + 1) * stride.toNat)) := by
  rw [Nat.add_one_mul]
  unfold limit?
  by_cases hproduct : UInt64.size ≤ count.toNat * stride.toNat
  · rw [Word.mul?_of_le hproduct, if_pos (Nat.le_add_right_of_le hproduct)]
    rfl
  rw [Word.mul?_of_lt (Nat.lt_of_not_le hproduct)]
  have hnumber : (count * stride).toNat = count.toNat * stride.toNat := by
    rw [UInt64.toNat_mul]
    exact Nat.mod_eq_of_lt (Nat.lt_of_not_le hproduct)
  by_cases hsum : UInt64.size ≤ count.toNat * stride.toNat + stride.toNat
  · rw [if_pos hsum]
    exact if_neg (by rw [hnumber]; exact Nat.not_lt_of_le hsum)
  · have hend : count * stride + UInt64.ofNat stride.toNat = UInt64.ofNat (count.toNat * stride.toNat + stride.toNat) := by
      rw [UInt64.ofNat_add, UInt64.ofNat_mul, UInt64.ofNat_toNat, UInt64.ofNat_toNat]
    rw [if_neg hsum, ← hend]
    exact if_pos (by rw [hnumber]; exact Nat.lt_of_not_le hsum)

namespace Layout

variable {c : Config} {o : Options} {l : Layout} {memorySize i : Word}

/-- A layout is made without leaving the words, unless it is refused for it. -/
theorem of?_eq (ho : o.snapshotSize.toNat ≤ 2 ^ 64 - 4096) : of? c o = some (of c o) := by
  have hmax : (max 1 o.snapshotSize).toNat = max 1 o.snapshotSize.toNat := by rw [UInt64.toNat_max, UInt64.toNat_one]
  unfold of? of
  rw [alignUp?_eq (by omega)]
  dsimp only [Option.bind_eq_bind, Option.bind_some]
  rw [limit?_eq, ← Nat.add_one_mul]
  generalize alignUp (max 1 o.snapshotSize) pageSize = stride
  by_cases hwraps : UInt64.size ≤ (o.virtines.toNat + 1) * stride.toNat
  · rw [if_pos hwraps, if_pos hwraps]
    rfl
  · have hneeded : (UInt64.ofNat ((o.virtines.toNat + 1) * stride.toNat)).toNat = (o.virtines.toNat + 1) * stride.toNat :=
      UInt64.toNat_ofNat_of_lt' (Nat.lt_of_not_le hwraps)
    rw [if_neg hwraps, if_neg hwraps]
    simp only [UInt64.lt_iff_toNat_lt, hneeded]
    split <;> rfl

/-- The virtine of an index has a place of its own in the memory, whose address is computed without leaving the words. -/
structure Placed (l : Layout) (o : Options) (memorySize i : Word) : Prop where
  exact : l.virtine? i = some (l.virtine i)
  ne_zero : l.virtine i ≠ 0
  aligned : (l.virtine i).toNat % 4096 = 0
  inside : (l.virtine i).toNat + o.snapshotSize.toNat ≤ memorySize.toNat
  apart_snapshot : Disjoint (places 0 o.snapshotSize) (places (l.virtine i) o.snapshotSize)
  apart : ∀ j < o.virtines, j ≠ i → Disjoint (places (l.virtine i) o.snapshotSize) (places (l.virtine j) o.snapshotSize)

namespace Fits

/-- The product and the sum that an address is computed with are at most the size of the memory. -/
theorem virtine?_eq (h : l.Fits o memorySize) (hi : i < o.virtines) : l.virtine? i = some (l.virtine i) := by
  have hbound := memorySize.toNat_lt
  have hsize : UInt64.size = 2 ^ 64 := rfl
  have hinside := h.inside
  have hstep := Nat.add_one_mul i.toNat o.stride
  have hlast : (i.toNat + 1) * o.stride ≤ (o.virtines.toNat + 1) * o.stride :=
    Nat.mul_le_mul_right _ (Nat.succ_le_succ (UInt64.le_of_lt hi))
  have hproduct : i.toNat * l.stride.toNat < UInt64.size := by
    rw [h.stride_eq]
    omega
  have hnumber : (i * l.stride).toNat = i.toNat * l.stride.toNat := by
    rw [UInt64.toNat_mul]
    exact Nat.mod_eq_of_lt hproduct
  have hsum : l.base.toNat + (i * l.stride).toNat ≤ memorySize.toNat := by
    rw [hnumber, h.base_eq, h.stride_eq]
    omega
  rw [virtine?, Word.mul?_of_lt hproduct]
  dsimp only [Option.bind_eq_bind, Option.bind_some]
  rw [ByteStore.add?_of_le memorySize hsum, UInt64.ofNat_toNat, virtine]

/-- Every virtine of a layout that fits has a place of its own. -/
theorem placed (h : l.Fits o memorySize) (hi : i < o.virtines) : l.Placed o memorySize i := by
  have hnumber : ∀ j : Word, l.virtine j = l.virtine (UInt64.ofNat j.toNat) := by
    intro j
    rw [UInt64.ofNat_toNat]
  have hi' : i.toNat < o.virtines.toNat := hi
  refine ⟨h.virtine?_eq hi, ?_, ?_, ?_, ?_, ?_⟩
  · rw [hnumber]
    exact h.virtine_ne_zero hi'
  · rw [hnumber, h.toNat_virtine hi', Options.stride, ← Nat.mul_assoc, Nat.mul_mod_left]
  · rw [hnumber]
    exact (h.virtine_inside hi').2
  · refine disjoint_places (Or.inl ?_)
    rw [hnumber, UInt64.toNat_zero, Nat.zero_add]
    exact (h.virtine_inside hi').1
  · intro j hj hji
    have hj' : j.toNat < o.virtines.toNat := hj
    refine disjoint_places ?_
    rw [hnumber i, hnumber j]
    rcases Nat.lt_or_gt_of_ne (mt UInt64.toNat_inj.mp hji) with hbefore | hbehind
    · exact Or.inr (h.virtines_apart hj' hi' hbefore)
    · exact Or.inl (h.virtines_apart hi' hj' hbehind)

end Fits

end Layout

/-- For every snapshot that can be rounded up to whole pages, and every number of virtines and size of the memory: the layout comes out
the same with sums and products that have no value where they leave the words, and is refused exactly if the snapshot and the virtines
need more than the memory; so it is where the end of the virtines is no word. If there is a layout, every virtine has a place of its
own, inside the memory and on whole pages, behind the snapshot and apart from all others, and computing its address does not leave the
words either. -/
theorem layout_stays_in_words (c : Config) (o : Options) (ho : o.snapshotSize.toNat ≤ 2 ^ 64 - 4096) :
    Layout.of? c o = some (Layout.of c o) ∧
      ((∃ e, Layout.of c o = .error e) ↔ c.memorySize.toNat < (o.virtines.toNat + 1) * o.stride) ∧
      (Layout.of c o = .error .overflow ↔ limit? o.virtines (alignUp (max 1 o.snapshotSize) pageSize) = none) ∧
      ∀ l, Layout.of c o = .ok l →
        l.stride.toNat = o.stride ∧ l.base.toNat = o.stride ∧ ∀ i < o.virtines, l.Placed o c.memorySize i := by
  have hstride := toNat_stride ho
  have hwraps : limit? o.virtines (alignUp (max 1 o.snapshotSize) pageSize) = none ↔
      2 ^ 64 ≤ (o.virtines.toNat + 1) * o.stride := by
    rw [limit?_eq, hstride]
    split
    · next h => exact iff_of_true rfl h
    · next h => exact iff_of_false nofun h
  have hcase := Layout.of_case (c := c) ho
  refine ⟨Layout.of?_eq ho, ?_⟩
  rw [hwraps]
  generalize Layout.of c o = answer at hcase
  have hbound := c.memorySize.toNat_lt
  cases hcase with
  | overflows h => exact ⟨⟨fun _ => by omega, fun _ => ⟨_, rfl⟩⟩, ⟨fun _ => h, fun _ => rfl⟩, nofun⟩
  | @tooLarge needed hneeded h =>
    have hword := needed.toNat_lt
    exact ⟨⟨fun _ => h, fun _ => ⟨_, rfl⟩⟩, ⟨nofun, fun hwraps => by omega⟩, nofun⟩
  | fits h =>
    have hinside := h.inside
    refine ⟨⟨nofun, fun hlarge => by omega⟩, ⟨nofun, fun hwraps => by omega⟩, ?_⟩
    rintro l ⟨⟩
    exact ⟨h.stride_eq, h.base_eq, fun i hi => h.placed hi⟩

/-- As many virtines as the words have room for: the last page of the last one is the last but one of all. One more virtine, and the
end is no word any more, though the product is. -/
theorem layout_stays_in_words_to_the_last_page :
    let c : Config := { memorySize := 0xffffffffffffffff }
    let o : Options := { virtines := 0xffffffffffffe, snapshotSize := 4096 }
    let l : Layout := ⟨4096, 4096⟩
    o.snapshotSize.toNat ≤ 2 ^ 64 - 4096 ∧ Layout.of c o = .ok l ∧ l.Placed o c.memorySize 0xffffffffffffd ∧
      l.virtine 0xffffffffffffd = 0xffffffffffffe000 ∧
      Layout.of c { o with virtines := 0xfffffffffffff } = .error .overflow := by
  intro c o l
  have ho : o.snapshotSize.toNat ≤ 2 ^ 64 - 4096 := by decide
  have hlayout : Layout.of c o = .ok l := by decide +kernel
  obtain ⟨-, -, -, hplaced⟩ := layout_stays_in_words c o ho
  obtain ⟨-, -, hoverflow, -⟩ := layout_stays_in_words c { o with virtines := 0xfffffffffffff } ho
  obtain ⟨-, -, hall⟩ := hplaced l hlayout
  exact ⟨ho, hlayout, hall _ (by decide), by decide, hoverflow.mpr (by decide)⟩

end Session

end VirtineCleaning

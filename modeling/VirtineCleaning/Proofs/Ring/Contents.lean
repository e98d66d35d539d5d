import Mathlib.Data.List.Basic
import Mathlib.Tactic.SplitIfs
import VirtineCleaning.Ring.Basic

/-!
# What a ring queue holds

`q.Holds values` says that the occupied slots of `q` are one cyclic interval from the head to the tail, and that they hold
`values`, oldest first. An empty queue and a full one have the same indices and differ in `values` alone, so every statement
about a queue is read off the list: the number of values, whether one may enter, what leaves. Inserting appends to the list and
popping takes its head; the interval goes round the end of the slots, and in a queue of one slot it begins and ends there.
-/

namespace VirtineCleaning.Ring

variable {α : Type u} {n : Nat} [HasSlots n]

/-! ## Places, going round -/

/-- The slot after `i`, as a remainder. -/
theorem val_next (i : Fin n) : (next i).val = (i.val + 1) % n := by
  have hi := i.isLt
  unfold next
  split
  · rename_i h
    exact (Nat.mod_eq_of_lt h).symm
  · rename_i h
    have he : i.val + 1 = n := by omega
    rw [he, Nat.mod_self]

/-- The slot after `i` is found by a comparison with the last slot alone, without a remainder. -/
theorem val_next_eq_ite (i : Fin n) : (next i).val = if i.val + 1 = n then 0 else i.val + 1 := by
  have hi := i.isLt
  unfold next
  split <;> split <;> simp only [] <;> omega

/-- The place `i` past the head, for `i` up to one round: the sum of the two, less one round where it passes the end. -/
theorem val_place (q : Ring α n) {i : Nat} (hi : i ≤ n) :
    (q.place i).val = if q.head.val + i < n then q.head.val + i else q.head.val + i - n := by
  have hh := q.head.isLt
  change (q.head.val + i) % n = _
  split_ifs with hlt
  · exact Nat.mod_eq_of_lt hlt
  · rw [Nat.mod_eq_sub_mod (by omega), Nat.mod_eq_of_lt (by omega)]

@[simp] theorem place_zero (q : Ring α n) : q.place 0 = q.head := by
  apply Fin.ext
  rw [val_place q (Nat.zero_le n)]
  have := q.head.isLt
  split_ifs <;> omega

/-- A whole round past the head is the head. -/
theorem place_capacity (q : Ring α n) : q.place n = q.head := by
  apply Fin.ext
  rw [val_place q (Nat.le_refl n)]
  split_ifs <;> omega

/-- The place behind a place is the next. -/
theorem next_place (q : Ring α n) (i : Nat) : next (q.place i) = q.place (i + 1) := by
  apply Fin.ext
  rw [val_next]
  simp only [place]
  rw [Nat.mod_add_mod, Nat.add_assoc]

/-- Places less than a round apart are different slots. -/
theorem place_inj (q : Ring α n) {i j : Nat} (hi : i < n) (hj : j < n) : q.place i = q.place j ↔ i = j := by
  refine ⟨fun h => ?_, fun h => by rw [h]⟩
  have hv := congrArg Fin.val h
  rw [val_place q (by omega), val_place q (by omega)] at hv
  split_ifs at hv <;> omega

/-- Every slot is a place, as many steps past the head as its index lies past that of the head, going round. -/
theorem place_sub_head (q : Ring α n) {i : Nat} (hi : i < n) :
    q.place ((i + n - q.head.val) % n) = ⟨i, hi⟩ := by
  have hh := q.head.isLt
  apply Fin.ext
  simp only [place]
  rw [Nat.add_mod_mod, show q.head.val + (i + n - q.head.val) = i + n by omega, Nat.add_mod_right,
    Nat.mod_eq_of_lt hi]

/-- Where there is more than one slot, the slot after a slot is another one. -/
theorem next_ne (h : 1 < n) (i : Fin n) : next i ≠ i := by
  intro heq
  have hval := congrArg Fin.val heq
  rw [val_next_eq_ite] at hval
  split at hval <;> omega

/-- A value enters only where the queue is not full, and moves the tail to the next slot. -/
theorem tail_of_insert {q r : Ring α n} {a : α} {tail : Nat} (hi : q.insert a = .ok (tail, r)) :
    q.isFull = false ∧ r.tail = next q.tail := by
  unfold insert at hi
  split at hi
  · cases hi
  · rename_i hroom
    cases hi
    exact ⟨Bool.eq_false_iff.2 hroom, rfl⟩

/-- A value is refused only where the queue is full. -/
theorem isFull_of_insert {q : Ring α n} {a : α} {e : QueueFull} (hi : q.insert a = .error e) : q.isFull = true := by
  unfold insert at hi
  split at hi
  · assumption
  · cases hi

/-- A removal leaves the tail where it is. -/
theorem tail_of_pop {q r : Ring α n} {a : α} (hp : q.pop = some (a, r)) : r.tail = q.tail := by
  unfold pop at hp
  split at hp
  · cases hp
  · cases hp
    rfl

/-! ## Holding a list -/

/-- Equal indices, equal slots. -/
theorem slots_congr (q : Ring α n) {i j : Fin n} (h : i = j) : q.slots[i] = q.slots[j] := by
  subst h
  rfl

/-- The queue holds exactly `values`: they lie in the slots from the head on, oldest first, the tail is the place behind the
last of them, and every other slot is vacant. -/
structure Holds (q : Ring α n) (values : List α) : Prop where
  length_le : values.length ≤ n
  tail_eq : q.tail = q.place values.length
  slot_eq : ∀ i < n, q.slots[q.place i] = values[i]?

/-- Reading a list off by its indices gives the list. -/
theorem filterMap_range_getElem? (values : List α) :
    (List.range values.length).filterMap (fun i => values[i]?) = values := by
  induction values with
  | nil => rfl
  | cons a values ih =>
    rw [List.length_cons, List.range_succ_eq_map, List.filterMap_cons, List.filterMap_map]
    simpa [Function.comp_def] using ih

namespace Holds

variable {q : Ring α n} {values : List α}

/-- A fresh queue holds nothing. -/
theorem empty : (Ring.empty : Ring α n).Holds [] where
  length_le := Nat.zero_le n
  tail_eq := by rw [List.length_nil, place_zero]; rfl
  slot_eq := by
    intro i _
    simp [Ring.empty]

theorem slot_head (h : q.Holds values) {i : Fin n} (hi : i = q.head) : q.slots[i] = values[0]? := by
  rw [← h.slot_eq 0 (Nat.pos_of_neZero n)]
  exact slots_congr q (hi.trans (place_zero q).symm)

/-- The indices agree when the queue holds nothing or as much as it can. -/
theorem head_eq_tail_iff (h : q.Holds values) : q.head = q.tail ↔ values.length = 0 ∨ values.length = n := by
  have hle := h.length_le
  rw [h.tail_eq]
  constructor
  · intro he
    by_cases hlt : values.length < n
    · rw [← place_zero q, place_inj q (by omega) hlt] at he
      exact Or.inl he.symm
    · exact Or.inr (by omega)
  · rintro (he | he)
    · rw [he, place_zero]
    · rw [he, place_capacity]

/-- The queue is full when it holds as many values as it has slots. -/
theorem isFull_eq (h : q.Holds values) : q.isFull = decide (values.length = n) := by
  have hpos := Nat.pos_of_neZero n
  rw [Bool.eq_iff_iff]
  simp only [isFull, Bool.and_eq_true, beq_iff_eq, decide_eq_true_iff, h.slot_head rfl, h.head_eq_tail_iff]
  cases values with
  | nil => simpa using Nat.ne_of_lt hpos
  | cons a values => simp

/-- The queue is empty when it holds nothing. -/
theorem isEmpty_eq (h : q.Holds values) : q.isEmpty = values.isEmpty := by
  rw [Bool.eq_iff_iff]
  simp only [isEmpty, Bool.and_eq_true, beq_iff_eq, h.slot_head rfl, h.head_eq_tail_iff]
  cases values <;> simp

/-- The difference of the indices counts the values, once a full queue is told apart by its slots. -/
theorem length_eq (h : q.Holds values) : q.length = values.length := by
  have hle := h.length_le
  have hh := q.head.isLt
  unfold length
  rw [h.isFull_eq]
  by_cases hfull : values.length = n
  · simp [hfull]
  · rw [if_neg (by simpa using hfull), h.tail_eq, val_place q hle]
    split_ifs with hwrap
    · rw [show q.head.val + values.length + n - q.head.val = values.length + n by omega, Nat.add_mod_right,
        Nat.mod_eq_of_lt (by omega)]
    · rw [show q.head.val + values.length - n + n - q.head.val = values.length by omega,
        Nat.mod_eq_of_lt (by omega)]

/-- A queue of no length holds nothing. -/
theorem nil_of_length (h : q.Holds values) (hzero : q.length = 0) : q.Holds [] := by
  rw [h.length_eq, List.length_eq_zero_iff] at hzero
  rw [hzero] at h
  exact h

/-- The head lies as many places before the tail as there are values, going round. -/
theorem head_eq (h : q.Holds values) : q.head.val = (q.tail.val + n - values.length) % n := by
  have hle := h.length_le
  have hh := q.head.isLt
  rw [h.tail_eq, val_place q hle]
  split_ifs with hwrap
  · rw [show q.head.val + values.length + n - values.length = q.head.val + n by omega, Nat.add_mod_right,
      Nat.mod_eq_of_lt hh]
  · rw [show q.head.val + values.length - n + n - values.length = q.head.val by omega, Nat.mod_eq_of_lt hh]

/-- Walking from the head to the tail meets the values in order. -/
theorem toList_eq (h : q.Holds values) : q.toList = values := by
  have hle := h.length_le
  have hslots : ∀ i ∈ List.range values.length, q.slots[q.place i] = values[i]? := by
    intro i hi
    have := List.mem_range.1 hi
    exact h.slot_eq i (by omega)
  unfold toList
  rw [h.length_eq, List.filterMap_congr hslots, filterMap_range_getElem?]

/-- Slot `i` shows the value that lies as many places behind the oldest as `i` lies past the head, going round. -/
theorem slot?_eq (h : q.Holds values) (i : Nat) :
    q.slot? i = if i < n then values[(i + n - q.head.val) % n]? else none := by
  unfold slot?
  split_ifs with hi
  · rw [← h.slot_eq _ (Nat.mod_lt _ (Nat.pos_of_neZero n))]
    exact slots_congr q (place_sub_head q hi).symm
  · rfl

/-- Where a value may enter, the slot at the tail is vacant. -/
theorem slot_tail (h : q.Holds values) (hlt : values.length < n) : q.slots[q.tail] = none := by
  rw [slots_congr q h.tail_eq, h.slot_eq _ hlt, List.getElem?_eq_none (Nat.le_refl _)]

/-! ## What the operations do to the list -/

/-- A full queue refuses every value and names the tail it has. -/
theorem insert_of_full (h : q.Holds values) (hfull : values.length = n) (a : α) :
    q.insert a = .error ⟨q.tail.val⟩ := by
  unfold insert
  rw [if_pos (by rw [h.isFull_eq, decide_eq_true hfull])]

/-- Where there is room, a value enters behind the last one, and the tail moves on by one slot. -/
theorem insert_of_room (h : q.Holds values) (hlt : values.length < n) (a : α) :
    ∃ r : Ring α n, q.insert a = .ok (r.tail.val, r) ∧ r.Holds (values ++ [a]) ∧ r.head = q.head ∧
      r.tail = next q.tail := by
  have hroom : ¬q.isFull = true := by
    rw [h.isFull_eq]
    simpa using Nat.ne_of_lt hlt
  refine ⟨{ q with slots := q.slots.set q.tail.val (some a) q.tail.isLt, tail := next q.tail }, ?_, ?_, rfl, rfl⟩
  · unfold insert
    rw [if_neg hroom]
  refine ⟨by simpa using Nat.succ_le_of_lt hlt, ?_, ?_⟩
  · change next q.tail = q.place (values ++ [a]).length
    rw [h.tail_eq, next_place, List.length_append, List.length_singleton]
  · intro i hi
    change (q.slots.set q.tail.val (some a) q.tail.isLt)[(q.place i).val] = _
    rw [Vector.getElem_set, List.getElem?_append]
    by_cases hnew : i = values.length
    · subst hnew
      rw [if_pos (by rw [h.tail_eq]), if_neg (Nat.lt_irrefl _), Nat.sub_self]
      rfl
    · have hne : q.tail.val ≠ (q.place i).val := by
        rw [h.tail_eq, Fin.val_ne_iff, ne_eq, place_inj q hlt hi]
        exact fun he => hnew he.symm
      rw [if_neg hne]
      split_ifs with hold
      · exact h.slot_eq i hi
      · rw [show q.slots[(q.place i).val] = values[i]? from h.slot_eq i hi,
          List.getElem?_eq_none (by omega), List.getElem?_eq_none (by simp; omega)]

/-- Nothing leaves an empty queue. -/
theorem pop_of_nil (h : q.Holds []) : q.pop = none := by
  have hvacant : q.slots[q.head] = none := h.slot_head rfl
  unfold pop
  split
  · rfl
  · rename_i a ha
    rw [hvacant] at ha
    cases ha

/-- The oldest value leaves first, and the head moves on by one slot. -/
theorem pop_of_cons {a : α} (h : q.Holds (a :: values)) :
    ∃ r : Ring α n, q.pop = some (a, r) ∧ r.Holds values ∧ r.head = next q.head ∧ r.tail = q.tail := by
  have hlt : values.length < n := h.length_le
  have hoccupied : q.slots[q.head] = some a := h.slot_head rfl
  refine ⟨{ q with slots := q.slots.set q.head.val none q.head.isLt, head := next q.head }, ?_, ?_, rfl, rfl⟩
  · unfold pop
    split
    · rename_i hnone
      rw [hoccupied] at hnone
      cases hnone
    · rename_i b hb
      rw [hoccupied] at hb
      cases hb
      rfl
  -- Seen from the new head, every place is one step nearer.
  have hplace : ∀ i, place { q with slots := q.slots.set q.head.val none q.head.isLt, head := next q.head } i =
      q.place (i + 1) := by
    intro i
    apply Fin.ext
    simp only [place]
    rw [val_next, Nat.mod_add_mod, Nat.add_right_comm, Nat.add_assoc]
  refine ⟨Nat.le_of_lt hlt, ?_, ?_⟩
  · rw [hplace]
    exact h.tail_eq
  · intro i hi
    rw [slots_congr _ (hplace i)]
    change (q.slots.set q.head.val none q.head.isLt)[(q.place (i + 1)).val] = _
    rw [Vector.getElem_set]
    by_cases hlast : i + 1 = n
    · have hround : q.head.val = (q.place (i + 1)).val := by rw [hlast, place_capacity]
      rw [if_pos hround, List.getElem?_eq_none (by omega)]
    · have hne : q.head.val ≠ (q.place (i + 1)).val := by
        intro he
        have hzero := (place_inj q (Nat.pos_of_neZero n) (by omega)).1 ((place_zero q).trans (Fin.ext he))
        omega
      rw [if_neg hne]
      exact (h.slot_eq (i + 1) (by omega)).trans List.getElem?_cons_succ

/-- What a successful insertion says. -/
theorem of_insert {a : α} {tail : Nat} {r : Ring α n} (h : q.Holds values) (hi : q.insert a = .ok (tail, r)) :
    values.length < n ∧ r.Holds (values ++ [a]) ∧ r.tail = next q.tail := by
  have hle := h.length_le
  by_cases hfull : values.length = n
  · rw [h.insert_of_full hfull] at hi
    cases hi
  · have hlt : values.length < n := by omega
    obtain ⟨r', hr, hholds, -, htail⟩ := h.insert_of_room hlt a
    rw [hr] at hi
    cases hi
    exact ⟨hlt, hholds, htail⟩

/-- What a successful removal says. -/
theorem of_pop {a : α} {r : Ring α n} (h : q.Holds values) (hp : q.pop = some (a, r)) :
    ∃ rest, values = a :: rest ∧ r.Holds rest ∧ r.tail = q.tail := by
  cases values with
  | nil =>
    rw [h.pop_of_nil] at hp
    cases hp
  | cons b rest =>
    obtain ⟨r', hr, hholds, -, htail⟩ := h.pop_of_cons
    rw [hr] at hp
    cases hp
    exact ⟨rest, rfl, hholds, htail⟩

/-- A queue from which nothing can be taken holds nothing. -/
theorem nil_of_pop (h : q.Holds values) (hp : q.pop = none) : values = [] := by
  cases values with
  | nil => rfl
  | cons b rest =>
    obtain ⟨r, hr, -⟩ := h.pop_of_cons
    rw [hr] at hp
    cases hp

end Holds

end VirtineCleaning.Ring

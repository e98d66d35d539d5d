import VirtineCleaning.Proofs.Ring.Contents

/-!
# A ring queue is a bounded queue

A bounded queue is a list that takes at most so many values, with two counters for the values that entered and left since it was
last cleared. `run_refines_fifo` says that a ring queue of any capacity, whatever is done to it from its creation on, gives the
answers of the bounded queue and shows its contents through every observer; its indices are the two counters, going round.
-/

namespace VirtineCleaning

/-- A queue as a list, oldest first. -/
structure Fifo (α : Type u) where
  values : List α := []
  /-- The values that entered since the queue was last cleared. -/
  entered : Nat := 0
  /-- The values that left since the queue was last cleared. -/
  left : Nat := 0
deriving DecidableEq, Repr

namespace Ring

/-- One operation on a queue. -/
inductive Operation (α : Type u) where
  | insert (a : α)
  | pop
  | clear
deriving DecidableEq, Repr

/-- What an operation answers. -/
inductive Answer (α : Type u) where
  | inserted (tail : Nat)
  | refused (e : QueueFull)
  | popped (a : Option α)
  | cleared
deriving DecidableEq, Repr

end Ring

namespace Fifo

variable {α : Type u}

/-- One operation on a bounded queue: a value enters while there is room, and the oldest leaves. -/
def perform (capacity : Nat) (f : Fifo α) : Ring.Operation α → Ring.Answer α × Fifo α
  | .insert a =>
    if f.values.length < capacity then
      (.inserted ((f.entered + 1) % capacity), { f with values := f.values ++ [a], entered := f.entered + 1 })
    else (.refused ⟨f.entered % capacity⟩, f)
  | .pop =>
    match f.values with
    | [] => (.popped none, f)
    | a :: rest => (.popped (some a), { f with values := rest, left := f.left + 1 })
  | .clear => (.cleared, {})

/-- Operations one after the other, with their answers. -/
def run (capacity : Nat) (f : Fifo α) : List (Ring.Operation α) → List (Ring.Answer α) × Fifo α
  | [] => ([], f)
  | op :: ops =>
    let next := f.perform capacity op
    let rest := run capacity next.2 ops
    (next.1 :: rest.1, rest.2)

end Fifo

namespace Ring

variable {α : Type u} {n : Nat} [HasSlots n]

/-- One operation on a ring queue; one that is refused leaves it as it is. -/
def perform (q : Ring α n) : Operation α → Answer α × Ring α n
  | .insert a =>
    match q.insert a with
    | .ok (tail, r) => (.inserted tail, r)
    | .error e => (.refused e, q)
  | .pop =>
    match q.pop with
    | some (a, r) => (.popped (some a), r)
    | none => (.popped none, q)
  | .clear => (.cleared, q.clear)

/-- Operations one after the other, with their answers. -/
def run (q : Ring α n) : List (Operation α) → List (Answer α) × Ring α n
  | [] => ([], q)
  | op :: ops =>
    let next := q.perform op
    let rest := run next.2 ops
    (next.1 :: rest.1, rest.2)

/-- The ring queue shows what the bounded queue holds, through every observer. -/
structure Agrees (q : Ring α n) (f : Fifo α) : Prop where
  length_le : f.values.length ≤ n
  length_eq : q.length = f.values.length
  isEmpty_eq : q.isEmpty = f.values.isEmpty
  isFull_eq : q.isFull = decide (f.values.length = n)
  toList_eq : q.toList = f.values
  tail_eq : q.tail.val = f.entered % n
  head_eq : q.head.val = f.left % n
  slot?_eq : ∀ i, q.slot? i = if i < n then f.values[(i + n - q.head.val) % n]? else none
  /-- An insertion that is not refused finds its slot vacant. -/
  vacant_tail : q.isFull = false → q.slots[q.tail] = none
  /-- Every index lies inside the slots. -/
  index_lt : q.head.val < n ∧ q.tail.val < n ∧ ∀ i, (q.place i).val < n

/-- The invariant of a run: the ring holds the list, and its indices are the counters, going round. -/
structure Simulates (q : Ring α n) (f : Fifo α) : Prop where
  holds : q.Holds f.values
  tail_eq : q.tail.val = f.entered % n
  head_eq : q.head.val = f.left % n

namespace Simulates

variable {q : Ring α n} {f : Fifo α}

/-- A fresh ring queue is an empty bounded queue. -/
theorem empty : (Ring.empty : Ring α n).Simulates {} where
  holds := Holds.empty
  tail_eq := (Nat.zero_mod n).symm
  head_eq := (Nat.zero_mod n).symm

/-- An insertion into both answers alike. -/
theorem perform_insert (h : q.Simulates f) (a : α) :
    (q.perform (.insert a)).1 = (f.perform n (.insert a)).1 ∧
      (q.perform (.insert a)).2.Simulates (f.perform n (.insert a)).2 := by
  by_cases hroom : f.values.length < n
  · obtain ⟨r, hr, hholds, hhead, htail⟩ := h.holds.insert_of_room hroom a
    have hnext : r.tail.val = (f.entered + 1) % n := by rw [htail, val_next, h.tail_eq, Nat.mod_add_mod]
    simp only [perform, hr, Fifo.perform, if_pos hroom, hnext, true_and]
    exact ⟨hholds, hnext, by rw [hhead, h.head_eq]⟩
  · have hfull : f.values.length = n := by
      have := h.holds.length_le
      omega
    simp only [perform, h.holds.insert_of_full hfull a, Fifo.perform, if_neg hroom, h.tail_eq, true_and]
    exact h

/-- A removal from both answers alike. -/
theorem perform_pop (h : q.Simulates f) :
    (q.perform .pop).1 = (f.perform n .pop).1 ∧ (q.perform .pop).2.Simulates (f.perform n .pop).2 := by
  obtain ⟨values, entered, left⟩ := f
  cases values with
  | nil =>
    simp only [perform, h.holds.pop_of_nil, Fifo.perform, true_and]
    exact h
  | cons a values =>
    obtain ⟨r, hr, hholds, hhead, htail⟩ := h.holds.pop_of_cons
    simp only [perform, hr, Fifo.perform, true_and]
    exact ⟨hholds, by rw [htail, h.tail_eq], by rw [hhead, val_next, h.head_eq, Nat.mod_add_mod]⟩

/-- One operation on both answers alike and keeps them together. -/
theorem perform (h : q.Simulates f) (op : Operation α) :
    (q.perform op).1 = (f.perform n op).1 ∧ (q.perform op).2.Simulates (f.perform n op).2 := by
  cases op with
  | insert a => exact h.perform_insert a
  | pop => exact h.perform_pop
  | clear => exact ⟨rfl, empty⟩

/-- So do operations one after the other. -/
theorem run (h : q.Simulates f) (ops : List (Operation α)) :
    (q.run ops).1 = (f.run n ops).1 ∧ (q.run ops).2.Simulates (f.run n ops).2 := by
  induction ops generalizing q f with
  | nil => exact ⟨rfl, h⟩
  | cons op ops ih =>
    obtain ⟨hanswer, hnext⟩ := h.perform op
    obtain ⟨hanswers, hlast⟩ := ih hnext
    exact ⟨by simp only [Ring.run, Fifo.run, hanswer, hanswers], hlast⟩

/-- Queues that are together agree through every observer. -/
theorem agrees (h : q.Simulates f) : q.Agrees f where
  length_le := h.holds.length_le
  length_eq := h.holds.length_eq
  isEmpty_eq := h.holds.isEmpty_eq
  isFull_eq := h.holds.isFull_eq
  toList_eq := h.holds.toList_eq
  tail_eq := h.tail_eq
  head_eq := h.head_eq
  slot?_eq := h.holds.slot?_eq
  vacant_tail := by
    intro hroom
    have hle := h.holds.length_le
    rw [h.holds.isFull_eq, decide_eq_false_iff_not] at hroom
    exact h.holds.slot_tail (by omega)
  index_lt := ⟨q.head.isLt, q.tail.isLt, fun i => (q.place i).isLt⟩

end Simulates

/-- A ring queue of any capacity, through any operations since its creation, answers like a bounded queue of that capacity and
shows what that queue holds. -/
theorem run_refines_fifo (ops : List (Operation α)) :
    ((empty : Ring α n).run ops).1 = (({} : Fifo α).run n ops).1 ∧
      ((empty : Ring α n).run ops).2.Agrees (({} : Fifo α).run n ops).2 := by
  obtain ⟨hanswers, htogether⟩ := (Simulates.empty (α := α) (n := n)).run ops
  exact ⟨hanswers, htogether.agrees⟩

/-- In a single slot the queue is empty and full by turns, with its indices at zero throughout. -/
theorem run_refines_fifo_single_slot :
    ((empty : Ring Nat 1).run [.insert 7, .insert 8, .pop, .pop, .insert 9]).1 =
        [.inserted 0, .refused ⟨0⟩, .popped (some 7), .popped none, .inserted 0] ∧
      ((empty : Ring Nat 1).run [.insert 7, .insert 8, .pop, .pop, .insert 9]).2.Agrees ⟨[9], 2, 1⟩ := by
  obtain ⟨hanswers, hagrees⟩ := run_refines_fifo (n := 1) [.insert 7, .insert 8, .pop, .pop, .insert (9 : Nat)]
  exact ⟨hanswers, hagrees⟩

end Ring

end VirtineCleaning

/-!
# Ring queues

A ring queue holds at most `n` values in a fixed row of slots. Values enter at the tail and leave at the head; both
indices go round. A slot is occupied exactly while it holds a value, so an empty queue and a full one, whose indices
agree alike, differ in the slot at the head.
-/

namespace VirtineCleaning

/-- A number of slots that a queue can have: at least one. The zero is named, so that it is the same one under every library. -/
abbrev HasSlots (n : Nat) : Prop := @NeZero Nat Zero.ofOfNat0 n

/-- A queue in `n` slots; `head` is the next slot to leave and `tail` the next to enter. -/
structure Ring (α : Type u) (n : Nat) [HasSlots n] where
  slots : Vector (Option α) n
  head : Fin n
  tail : Fin n
deriving DecidableEq

/-- Why a value was not inserted: every slot is occupied, and the tail stays where it is. -/
structure QueueFull where
  tail : Nat
deriving DecidableEq, Repr

/-- The wording of a refused insertion. -/
def QueueFull.message (e : QueueFull) : String := s!"ring queue is full (tail={e.tail})"

/-- The slot after `i`, going round at the end. -/
def Ring.next {n : Nat} [HasSlots n] (i : Fin n) : Fin n :=
  if h : i.val + 1 < n then ⟨i.val + 1, h⟩ else ⟨0, Nat.pos_of_neZero n⟩

namespace Ring

variable {α : Type u} {n : Nat} [HasSlots n]

/-- The queue without values, at slot 0. -/
def empty : Ring α n where
  slots := Vector.replicate n none
  head := ⟨0, Nat.pos_of_neZero n⟩
  tail := ⟨0, Nat.pos_of_neZero n⟩

instance : Inhabited (Ring α n) := ⟨empty⟩

/-- The number of slots. -/
def capacity (_ : Ring α n) : Nat := n

/-- The indices agree and the slot there is vacant. -/
def isEmpty (q : Ring α n) : Bool := q.head == q.tail && q.slots[q.head].isNone

/-- The indices agree and the slot there is occupied. -/
def isFull (q : Ring α n) : Bool := q.head == q.tail && q.slots[q.head].isSome

/-- The number of values, read off the indices. -/
def length (q : Ring α n) : Nat :=
  if q.isFull then n else (q.tail.val + n - q.head.val) % n

/-- Appends a value and answers the new tail; a full queue refuses it. -/
def insert (q : Ring α n) (a : α) : Except QueueFull (Nat × Ring α n) :=
  if q.isFull then .error ⟨q.tail.val⟩
  else
    let tail := next q.tail
    .ok (tail.val, { q with slots := q.slots.set q.tail.val (some a) q.tail.isLt, tail := tail })

/-- The value at the head and the queue without it; `none` where the head's slot is vacant. -/
def pop (q : Ring α n) : Option (α × Ring α n) :=
  match q.slots[q.head] with
  | none => none
  | some a => some (a, { q with slots := q.slots.set q.head.val none q.head.isLt, head := next q.head })

/-- The content of slot `i`, vacant past the last slot. -/
def slot? (q : Ring α n) (i : Nat) : Option α :=
  if h : i < n then q.slots[i] else none

/-- The slot that lies `i` places past the head. -/
def place (q : Ring α n) (i : Nat) : Fin n := ⟨(q.head.val + i) % n, Nat.mod_lt _ (Nat.pos_of_neZero n)⟩

/-- The values from the head to the tail, oldest first. -/
def toList (q : Ring α n) : List α :=
  (List.range q.length).filterMap fun i => q.slots[q.place i]

/-- The queue emptied and set back to slot 0. -/
def clear (_ : Ring α n) : Ring α n := empty

/-- The number of occupied slots. -/
def occupied (q : Ring α n) : Nat := q.slots.countP Option.isSome

/-- A value that leaves vacates one slot. -/
theorem occupied_of_pop {q r : Ring α n} {a : α} (h : q.pop = some (a, r)) : r.occupied + 1 = q.occupied := by
  unfold pop at h
  split at h
  · simp at h
  · next b hb =>
    simp only [Option.some.injEq, Prod.mk.injEq] at h
    obtain ⟨rfl, rfl⟩ := h
    have hs : q.slots[q.head.val] = some b := hb
    have hpos : 0 < q.slots.countP Option.isSome :=
      Vector.countP_pos_iff.2 ⟨some b, hs ▸ Vector.getElem_mem q.head.isLt, rfl⟩
    simp only [occupied, Vector.countP_set, hs]
    simp
    omega

/-- The text of a queue: its indices and its values in order. -/
def describe (render : α → String) (q : Ring α n) : String :=
  s!"RingQueue \x7b capacity: {q.capacity}, head: {q.head.val}, tail: {q.tail.val}, entries: ["
    ++ ", ".intercalate (q.toList.map render) ++ "] \x7d"

end Ring

end VirtineCleaning

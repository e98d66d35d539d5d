/-!
# Byte positions in text

Where a place in a text is counted in bytes, it may lie inside a character. `splitBytes?_eq_some_iff` says that a split
at a byte position succeeds exactly where whole characters fill the bytes before it.
-/

namespace VirtineCleaning.Text

/-- The number of bytes of a text. -/
def byteCount (cs : List Char) : Nat := cs.foldr (fun c n => c.utf8Size + n) 0

/-- The characters that fill the first `n` bytes, and the others. -/
def splitBytes? : Nat → List Char → Option (List Char × List Char)
  | 0, cs => some ([], cs)
  | _ + 1, [] => none
  | n + 1, c :: cs =>
    if c.utf8Size ≤ n + 1 then (splitBytes? (n + 1 - c.utf8Size) cs).map fun (front, rest) => (c :: front, rest)
    else none

/-- The characters that fill the bytes from `first` up to `last`. -/
def cutBytes? (cs : List Char) (first last : Nat) : Option (List Char) := do
  let (front, _) ← splitBytes? last cs
  let (_, part) ← splitBytes? first front
  return part

@[simp] theorem byteCount_nil : byteCount [] = 0 := rfl

@[simp] theorem byteCount_cons (c : Char) (cs : List Char) : byteCount (c :: cs) = c.utf8Size + byteCount cs := rfl

/-- Text is split where its first part ends. -/
theorem splitBytes?_append (front rest : List Char) :
    splitBytes? (byteCount front) (front ++ rest) = some (front, rest) := by
  induction front with
  | nil => simp [splitBytes?]
  | cons c front ih =>
    have hc := c.utf8Size_pos
    obtain ⟨n, hn⟩ : ∃ n, byteCount (c :: front) = n + 1 := Nat.exists_eq_add_one.2 (by simp; omega)
    have hle : c.utf8Size ≤ n + 1 := by simp at hn; omega
    have hrest : n + 1 - c.utf8Size = byteCount front := by simp at hn; omega
    rw [hn, List.cons_append, splitBytes?, if_pos hle, hrest, ih]
    rfl

/-- A split at a byte position succeeds exactly where whole characters fill the bytes before it. -/
theorem splitBytes?_eq_some_iff {n : Nat} {cs front rest : List Char} :
    splitBytes? n cs = some (front, rest) ↔ cs = front ++ rest ∧ byteCount front = n := by
  constructor
  · intro h
    fun_induction splitBytes? n cs generalizing front with
    | case1 cs => simp_all
    | case2 => simp at h
    | case3 n c cs hc ih =>
      obtain ⟨⟨front', rest'⟩, h', heq⟩ := Option.map_eq_some_iff.1 h
      simp only [Prod.mk.injEq] at heq
      obtain ⟨rfl, rfl⟩ := heq
      obtain ⟨rfl, hcount⟩ := ih h'
      refine ⟨rfl, ?_⟩
      rw [byteCount_cons, hcount]
      omega
    | case4 => simp at h
  · rintro ⟨rfl, rfl⟩
    exact splitBytes?_append front rest

end VirtineCleaning.Text

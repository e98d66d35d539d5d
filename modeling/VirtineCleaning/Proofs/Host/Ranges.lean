import VirtineCleaning.Proofs.Device.Frame
import VirtineCleaning.Proofs.Host.Simulation
import VirtineCleaning.Proofs.Host.Transfers

/-!
# Transfers of ranges

A transfer of a range makes one access of four bytes for each whole word of the range that lies in the window, from the first on,
and ends early at an access that does not move its word whole. On a device no access does that. So a range may be cut at any word:
its parts, transferred one after the other, move the same bytes and leave the same device, even if a word that is staged or latched
in halves is cut in two (`ranges_of_words`).
-/

namespace VirtineCleaning

/-! ## The accesses of a transfer -/

/-- The bytes of one word of a range. -/
def wordAt (bytes : List UInt8) (i : Nat) : List UInt8 := (bytes.drop (accessAlign * i)).take accessAlign

/-- Where one word of a range lies that begins at an offset. -/
def wordOffset (offset : Word) (i : Nat) : Word := offset + UInt64.ofNat (accessAlign * i)

/-- Accesses to the first `n` words of a range, each of which moves its word; `access` makes one of an offset, bytes and a count. -/
def wholeAccesses (access : Word → List UInt8 → Nat → Transfer) (offset : Word) (bytes : List UInt8) (n : Nat) :
    List Transfer :=
  (List.range n).map fun i => access (wordOffset offset i) (wordAt bytes i) accessAlign

/-- Accesses to the words of a range, `full` of which are whole: all of them, or all in front of one that comes out short. -/
inductive Sweep (access : Word → List UInt8 → Nat → Transfer) (offset : Word) (bytes : List UInt8) (words : Nat) :
    (full : Nat) → List Transfer → Prop where
  | whole : Sweep access offset bytes words words (wholeAccesses access offset bytes words)
  | short {full count : Nat} (hfull : full < words) (hcount : count ≠ accessAlign) :
      Sweep access offset bytes words full
        (wholeAccesses access offset bytes full ++ [access (wordOffset offset full) (wordAt bytes full) count])

/-- The bytes of one word and of `n` more. -/
theorem accessAlign_mul_succ (n : Nat) : accessAlign * (n + 1) = accessAlign + accessAlign * n := by
  rw [Nat.mul_succ, Nat.add_comm]

section

variable {word : List UInt8} (hword : word.length = accessAlign) (rest : List UInt8)
include hword

theorem wordAt_append_zero : wordAt (word ++ rest) 0 = word := List.take_left' hword

theorem wordAt_append_succ (i : Nat) : wordAt (word ++ rest) (i + 1) = wordAt rest i := by
  rw [wordAt, accessAlign_mul_succ, ← hword, List.drop_length_add_append, hword, wordAt]

end

theorem wordOffset_zero (offset : Word) : wordOffset offset 0 = offset := UInt64.add_zero offset

theorem wordOffset_succ (offset : Word) (i : Nat) : wordOffset offset (i + 1) = wordOffset (offset + 4) i := by
  rw [wordOffset, accessAlign_mul_succ, UInt64.ofNat_add, ← UInt64.add_assoc]
  rfl

/-- The first word of a range, and the others. -/
theorem wholeAccesses_succ (access : Word → List UInt8 → Nat → Transfer) (offset : Word) {word : List UInt8}
    (hword : word.length = accessAlign) (rest : List UInt8) (n : Nat) :
    wholeAccesses access offset (word ++ rest) (n + 1) =
      access offset word accessAlign :: wholeAccesses access (offset + 4) rest n := by
  rw [wholeAccesses, List.range_succ_eq_map, List.map_cons, List.map_map, wordOffset_zero, wordAt_append_zero hword]
  congr 1
  apply List.map_congr_left
  intro i _
  simp only [Function.comp, Nat.succ_eq_add_one, wordOffset_succ, wordAt_append_succ hword]

namespace Sweep

variable {access : Word → List UInt8 → Nat → Transfer} {offset : Word} {word rest : List UInt8} {words full : Nat}
  {made : List Transfer}

/-- Of no words there are no accesses. -/
theorem nil : Sweep access offset rest 0 0 [] := whole

/-- A whole word is followed by the others. -/
theorem cons (h : Sweep access (offset + 4) rest words full made) (hword : word.length = accessAlign) :
    Sweep access offset (word ++ rest) (words + 1) (full + 1) (access offset word accessAlign :: made) := by
  cases h with
  | whole =>
    rw [← wholeAccesses_succ access offset hword]
    exact whole
  | @short _ count hfull hcount =>
    rw [← List.cons_append, ← wholeAccesses_succ access offset hword, ← wordOffset_succ, ← wordAt_append_succ hword]
    exact short (Nat.succ_lt_succ hfull) hcount

/-- A word that comes out short is the last one. -/
theorem singleton (hword : word.length = accessAlign) {count : Nat} (hcount : count ≠ accessAlign) :
    Sweep access offset (word ++ rest) (words + 1) 0 [access offset word count] := by
  have hshort : Sweep access offset (word ++ rest) (words + 1) 0 _ := short (Nat.zero_lt_succ words) hcount
  rw [wordOffset_zero, wordAt_append_zero hword] at hshort
  exact hshort

end Sweep

/-! ## Buses that move whole words -/

section

variable {σ : Type}

/-- No access to a whole word, at a multiple of four, comes out short. -/
structure Bus.MovesWords (bus : Bus σ) : Prop where
  read : ∀ (offset : Word) (buffer : List UInt8) (s : σ), offset.toNat % accessAlign = 0 → buffer.length = accessAlign →
    (bus.read offset buffer s).1.1 = accessAlign
  write : ∀ (offset : Word) (bytes : List UInt8) (s : σ), offset.toNat % accessAlign = 0 → bytes.length = accessAlign →
    (bus.write offset bytes s).1 = accessAlign

end

/-- A device is accessed whole. -/
theorem Device.movesWords_bus : Device.bus.MovesWords where
  read offset buffer d halign hlength := by
    have hmoves : decode offset buffer.length ≠ .dropped := decode_ne_dropped (by rw [hlength]; decide) halign
    obtain ⟨bytes, hread⟩ := d.exists_bus_read hmoves
    rw [hread]
    exact hlength
  write offset bytes d halign hlength := by
    have hmoves : decode offset bytes.length ≠ .dropped := decode_ne_dropped (by rw [hlength]; decide) halign
    exact (d.count_write hmoves).trans hlength

/-- The word after a place for accesses is one, too, also where the addresses end. -/
theorem aligned_add {offset : Word} (halign : offset.toNat % accessAlign = 0) : (offset + 4).toNat % accessAlign = 0 := by
  rw [UInt64.toNat_add]
  simp only [accessAlign] at halign ⊢
  change (offset.toNat + 4) % 2 ^ 64 % 4 = 0
  omega

namespace Host

variable {σ : Type}

/-! ## Word by word -/

/-- The bytes of a word that a range begins with. -/
theorem length_take_word {bytes : List UInt8} {words : Nat} (h : accessAlign * (words + 1) ≤ bytes.length) :
    (bytes.take accessAlign).length = accessAlign := by
  rw [List.length_take]
  simp only [accessAlign] at h ⊢
  omega

/-- As many words as before, but for one, are left behind the first. -/
theorem le_length_drop_word {bytes : List UInt8} {words : Nat} (h : accessAlign * (words + 1) ≤ bytes.length) :
    accessAlign * words ≤ (bytes.drop accessAlign).length := by
  rw [List.length_drop]
  simp only [accessAlign] at h ⊢
  omega

/-- What lies behind the words that were accessed. -/
theorem drop_word (bytes : List UInt8) (n : Nat) :
    (bytes.drop accessAlign).drop (accessAlign * n) = bytes.drop (accessAlign * (n + 1)) := by
  rw [List.drop_drop, accessAlign_mul_succ]

/-- The words of a range are read one after the other, until one comes out short. Behind them the buffer stays as it was. -/
theorem readWords_traced (bus : Bus σ) (offset : Word) (words : Nat) (buffer : List UInt8)
    (hwords : accessAlign * words ≤ buffer.length) (s : σ) (trace : List Transfer) :
    ∃ full made shown t,
      readWords bus.traced offset words buffer (s, trace) =
        ((accessAlign * full, shown ++ buffer.drop (accessAlign * made.length)), (t, trace ++ made)) ∧
      shown.length = accessAlign * made.length ∧ Sweep .read offset shown words full made := by
  induction words generalizing offset buffer s trace with
  | zero => exact ⟨0, [], [], s, by rw [List.append_nil]; rfl, rfl, .nil⟩
  | succ words ih =>
    have hlength := bus.length_read offset (buffer.take accessAlign) s
    rcases hread : bus.read offset (buffer.take accessAlign) s with ⟨⟨count, word⟩, t⟩
    rw [hread, length_take_word hwords] at hlength
    have htraced : bus.traced.read offset (buffer.take accessAlign) (s, trace) =
        ((count, word), (t, trace ++ [.read offset word count])) := by
      simp only [Bus.traced, hread]
    by_cases hcount : count = accessAlign
    · subst hcount
      obtain ⟨full, made, shown, u, hmore, hshown, hsweep⟩ :=
        ih (offset + 4) (buffer.drop accessAlign) (le_length_drop_word hwords) t (trace ++ [.read offset word accessAlign])
      refine ⟨full + 1, .read offset word accessAlign :: made, word ++ shown, u, ?_, ?_, hsweep.cons hlength⟩
      · rw [readWords_succ htraced, hmore, drop_word, List.append_assoc, List.append_assoc]
        rw [accessAlign_mul_succ full]
        rfl
      · rw [List.length_append, hshown, hlength, List.length_cons, accessAlign_mul_succ]
    · have hsweep : Sweep .read offset (word ++ []) (words + 1) 0 _ := .singleton hlength hcount
      rw [List.append_nil] at hsweep
      refine ⟨0, [.read offset word count], word, t, ?_, hlength, hsweep⟩
      rw [readWords, bind_run, htraced]
      dsimp only
      rw [if_neg hcount]
      rfl

/-- So are they written. -/
theorem writeWords_traced (bus : Bus σ) (offset : Word) (words : Nat) (bytes : List UInt8)
    (hwords : accessAlign * words ≤ bytes.length) (s : σ) (trace : List Transfer) :
    ∃ full made t,
      writeWords bus.traced offset words bytes (s, trace) = (accessAlign * full, (t, trace ++ made)) ∧
      Sweep .write offset bytes words full made := by
  induction words generalizing offset bytes s trace with
  | zero => exact ⟨0, [], s, by rw [List.append_nil]; rfl, .nil⟩
  | succ words ih =>
    have hword := length_take_word hwords
    have hrest := le_length_drop_word hwords
    have hcut := List.take_append_drop accessAlign bytes
    generalize bytes.take accessAlign = word, bytes.drop accessAlign = rest at hword hrest hcut
    subst hcut
    rcases hwrite : bus.write offset word s with ⟨count, t⟩
    have htraced : bus.traced.write offset word (s, trace) = (count, (t, trace ++ [.write offset word count])) := by
      simp only [Bus.traced, hwrite]
    by_cases hcount : count = accessAlign
    · subst hcount
      obtain ⟨full, made, u, hmore, hsweep⟩ := ih (offset + 4) rest hrest t (trace ++ [.write offset word accessAlign])
      refine ⟨full + 1, .write offset word accessAlign :: made, u, ?_, hsweep.cons hword⟩
      rw [writeWords_succ hword htraced, hmore, List.append_assoc, accessAlign_mul_succ]
      rfl
    · refine ⟨0, [.write offset word count], t, ?_, .singleton hword hcount⟩
      rw [writeWords, List.take_left' hword, bind_run, htraced]
      dsimp only
      rw [if_neg hcount]
      rfl

/-! ## Ranges that are cut -/

section

variable {bus : Bus σ} (hbus : bus.MovesWords)
include hbus

/-- The words in front are read first, and then those behind them. -/
theorem readWords_append {m : Nat} {front : List UInt8} (hfront : front.length = accessAlign * m) (back : List UInt8) (n : Nat)
    {offset : Word} (halign : offset.toNat % accessAlign = 0) (s : σ) :
    readWords bus offset (m + n) (front ++ back) s =
      let first := readWords bus offset m front s
      let second := readWords bus (wordOffset offset m) n back first.2
      ((first.1.1 + second.1.1, first.1.2 ++ second.1.2), second.2) := by
  induction m generalizing front offset s with
  | zero =>
    rw [List.eq_nil_of_length_eq_zero hfront, wordOffset_zero, Nat.zero_add]
    change _ = ((0 + (readWords bus offset n back s).1.1, _), _)
    rw [Nat.zero_add]
    rfl
  | succ m ih =>
    have hword := length_take_word (Nat.le_of_eq hfront.symm)
    have hrest : (front.drop accessAlign).length = accessAlign * m := by
      rw [List.length_drop, hfront, accessAlign_mul_succ, Nat.add_sub_cancel_left]
    have hcut := List.take_append_drop accessAlign front
    generalize front.take accessAlign = word, front.drop accessAlign = rest at hword hrest hcut
    subst hcut
    rcases hread : bus.read offset word s with ⟨⟨count, shown⟩, t⟩
    have hcount := hbus.read offset word s halign hword
    rw [hread] at hcount
    subst hcount
    have htake : ∀ more, (word ++ more).take accessAlign = word := fun more => List.take_left' hword
    have hdrop : ∀ more, (word ++ more).drop accessAlign = more := fun more => List.drop_left' hword
    rw [List.append_assoc, Nat.add_right_comm, readWords_succ ((htake _).symm ▸ hread),
      readWords_succ ((htake _).symm ▸ hread), hdrop, hdrop, ih hrest (aligned_add halign), wordOffset_succ]
    simp only [Nat.add_assoc, List.append_assoc]

/-- What lies behind the words that are read stays as it was. -/
theorem readWords_front {m : Nat} {front : List UInt8} (hfront : accessAlign * m ≤ front.length) (back : List UInt8)
    {offset : Word} (halign : offset.toNat % accessAlign = 0) (s : σ) :
    readWords bus offset m (front ++ back) s =
      let first := readWords bus offset m front s
      ((first.1.1, first.1.2 ++ back), first.2) := by
  have hwords : (front.take (accessAlign * m)).length = accessAlign * m := by rw [List.length_take, Nat.min_eq_left hfront]
  have hnone : ∀ rest, readWords bus offset m (front.take (accessAlign * m) ++ rest) s =
      let first := readWords bus offset m (front.take (accessAlign * m)) s
      ((first.1.1, first.1.2 ++ rest), first.2) := fun rest => readWords_append hbus hwords rest 0 halign s
  have hcut := List.take_append_drop (accessAlign * m) front
  generalize front.take (accessAlign * m) = words, front.drop (accessAlign * m) = rest at hnone hcut
  subst hcut
  rw [List.append_assoc, hnone, hnone]
  simp only [List.append_assoc]

/-- The words in front are written first, and then those behind them. -/
theorem writeWords_append {m : Nat} {front : List UInt8} (hfront : front.length = accessAlign * m) (back : List UInt8)
    (n : Nat) {offset : Word} (halign : offset.toNat % accessAlign = 0) (s : σ) :
    writeWords bus offset (m + n) (front ++ back) s =
      let first := writeWords bus offset m front s
      let second := writeWords bus (wordOffset offset m) n back first.2
      (first.1 + second.1, second.2) := by
  induction m generalizing front offset s with
  | zero =>
    rw [List.eq_nil_of_length_eq_zero hfront, wordOffset_zero, Nat.zero_add]
    change _ = (0 + (writeWords bus offset n back s).1, _)
    rw [Nat.zero_add]
    rfl
  | succ m ih =>
    have hword := length_take_word (Nat.le_of_eq hfront.symm)
    have hrest : (front.drop accessAlign).length = accessAlign * m := by
      rw [List.length_drop, hfront, accessAlign_mul_succ, Nat.add_sub_cancel_left]
    have hcut := List.take_append_drop accessAlign front
    generalize front.take accessAlign = word, front.drop accessAlign = rest at hword hrest hcut
    subst hcut
    rcases hwrite : bus.write offset word s with ⟨count, t⟩
    have hcount := hbus.write offset word s halign hword
    rw [hwrite] at hcount
    subst hcount
    rw [List.append_assoc, Nat.add_right_comm, writeWords_succ hword hwrite, writeWords_succ hword hwrite,
      ih hrest (aligned_add halign), wordOffset_succ]
    simp only [Nat.add_assoc]

/-- What lies behind the words that are written does not matter. -/
theorem writeWords_front {m : Nat} {front : List UInt8} (hfront : accessAlign * m ≤ front.length) (back : List UInt8)
    {offset : Word} (halign : offset.toNat % accessAlign = 0) (s : σ) :
    writeWords bus offset m (front ++ back) s = writeWords bus offset m front s := by
  have hwords : (front.take (accessAlign * m)).length = accessAlign * m := by rw [List.length_take, Nat.min_eq_left hfront]
  have hnone : ∀ rest, writeWords bus offset m (front.take (accessAlign * m) ++ rest) s =
      writeWords bus offset m (front.take (accessAlign * m)) s :=
    fun rest => writeWords_append hbus hwords rest 0 halign s
  have hcut := List.take_append_drop (accessAlign * m) front
  generalize front.take (accessAlign * m) = words, front.drop (accessAlign * m) = rest at hnone hcut
  subst hcut
  rw [List.append_assoc, hnone, hnone]

/-- Every word is moved. -/
theorem readWords_count {words : Nat} {buffer : List UInt8} (hwords : accessAlign * words ≤ buffer.length) {offset : Word}
    (halign : offset.toNat % accessAlign = 0) (s : σ) :
    (readWords bus offset words buffer s).1.1 = accessAlign * words := by
  induction words generalizing buffer offset s with
  | zero => rfl
  | succ words ih =>
    rcases hread : bus.read offset (buffer.take accessAlign) s with ⟨⟨count, shown⟩, t⟩
    have hcount := hbus.read offset _ s halign (length_take_word hwords)
    rw [hread] at hcount
    subst hcount
    rw [readWords_succ hread, accessAlign_mul_succ]
    dsimp only
    rw [ih (le_length_drop_word hwords) (aligned_add halign)]

/-- As many bytes are written as were asked for. -/
theorem writeWords_count {words : Nat} {bytes : List UInt8} (hwords : accessAlign * words ≤ bytes.length) {offset : Word}
    (halign : offset.toNat % accessAlign = 0) (s : σ) :
    (writeWords bus offset words bytes s).1 = accessAlign * words := by
  induction words generalizing bytes offset s with
  | zero => rfl
  | succ words ih =>
    have hword := length_take_word hwords
    rcases hwrite : bus.write offset (bytes.take accessAlign) s with ⟨count, t⟩
    have hcount := hbus.write offset _ s halign hword
    rw [hwrite] at hcount
    subst hcount
    rw [← List.take_append_drop accessAlign bytes, writeWords_succ hword hwrite, accessAlign_mul_succ]
    dsimp only
    rw [ih (le_length_drop_word hwords) (aligned_add halign)]

end

/-! ## Ranges of the window -/

/-- The whole words of a range that lie in the window; none if it begins between two words. -/
def rangeWords (offset : Word) (length : Nat) : Nat :=
  if offset.toNat % accessAlign = 0 then min length (windowSize - offset.toNat) / accessAlign else 0

/-- A transfer that is refused has no words. -/
theorem rangeWords_eq (offset : Word) (length : Nat) : rangeWords offset length = (transferWords offset length).getD 0 := by
  unfold rangeWords transferWords
  by_cases halign : offset.toNat % accessAlign = 0
  · by_cases hinside : windowSize ≤ offset.toNat
    · rw [if_pos halign, if_pos (Or.inr hinside), Nat.sub_eq_zero_of_le hinside, Nat.min_zero]
      rfl
    · rw [if_pos halign, if_neg (by omega)]
      rfl
  · rw [if_neg halign, if_pos (Or.inl halign)]
    rfl

/-- A transfer reads the words of its range. -/
theorem readAt_eq (bus : Bus σ) (offset : Word) (buffer : List UInt8) :
    readAt bus offset buffer = readWords bus offset (rangeWords offset buffer.length) buffer := by
  rw [rangeWords_eq, readAt]
  cases transferWords offset buffer.length <;> rfl

/-- Or it writes them. -/
theorem writeAt_eq (bus : Bus σ) (offset : Word) (bytes : List UInt8) :
    writeAt bus offset bytes = writeWords bus offset (rangeWords offset bytes.length) bytes := by
  rw [rangeWords_eq, writeAt]
  cases transferWords offset bytes.length <;> rfl

/-- The words of a range lie inside of it. -/
theorem rangeWords_le (offset : Word) (length : Nat) : accessAlign * rangeWords offset length ≤ length := by
  unfold rangeWords accessAlign
  split <;> omega

/-- The words of a range that is cut are those of its parts; a part that goes on in the window is whole words. -/
theorem rangeWords_add {offset : Word} {k : Nat} (hk : k % accessAlign = 0) (hwrap : offset.toNat + k < 2 ^ 64) (length : Nat) :
    rangeWords offset (k + length) = rangeWords offset k + rangeWords (offset + UInt64.ofNat k) length ∧
      (accessAlign * rangeWords offset k = k ∨ rangeWords (offset + UInt64.ofNat k) length = 0) := by
  have hplace : (offset + UInt64.ofNat k).toNat = offset.toNat + k := by
    rw [UInt64.toNat_add, UInt64.toNat_ofNat', Nat.mod_eq_of_lt (by omega : k < 2 ^ 64), Nat.mod_eq_of_lt hwrap]
  have hnext : (offset.toNat + k) % accessAlign = 0 ↔ offset.toNat % accessAlign = 0 := by
    simp only [accessAlign] at hk ⊢
    omega
  unfold rangeWords
  rw [hplace]
  by_cases halign : offset.toNat % accessAlign = 0
  · rw [if_pos halign, if_pos halign, if_pos (hnext.2 halign)]
    simp only [accessAlign, windowSize] at hk halign ⊢
    omega
  · rw [if_neg halign, if_neg halign, if_neg (mt hnext.1 halign)]
    exact ⟨rfl, Or.inr rfl⟩

section

variable {bus : Bus σ} (hbus : bus.MovesWords) {offset : Word} {front : List UInt8} (hk : front.length % accessAlign = 0)
  (hwrap : offset.toNat + front.length < 2 ^ 64)
include hbus hk hwrap

/-- A range that is read in two parts comes to the same as one that is read at once. -/
theorem readAt_append (back : List UInt8) (s : σ) :
    readAt bus offset (front ++ back) s =
      let first := readAt bus offset front s
      let second := readAt bus (offset + UInt64.ofNat front.length) back first.2
      ((first.1.1 + second.1.1, first.1.2 ++ second.1.2), second.2) := by
  obtain ⟨hadd, hcut⟩ := rangeWords_add hk hwrap back.length
  have hle := rangeWords_le offset front.length
  simp only [readAt_eq, List.length_append, hadd]
  by_cases halign : offset.toNat % accessAlign = 0
  · rcases hcut with hwhole | hnone
    · rw [readWords_append hbus hwhole.symm back _ halign, wordOffset, hwhole]
    · rw [hnone, Nat.add_zero, readWords_front hbus hle back halign]
      rfl
  · have hnone : ∀ length, rangeWords offset length = 0 := fun _ => if_neg halign
    rw [hnone, hnone, Nat.zero_add] at hadd
    rw [hnone, ← hadd]
    rfl

/-- So does one that is written in two parts. -/
theorem writeAt_append (back : List UInt8) (s : σ) :
    writeAt bus offset (front ++ back) s =
      let first := writeAt bus offset front s
      let second := writeAt bus (offset + UInt64.ofNat front.length) back first.2
      (first.1 + second.1, second.2) := by
  obtain ⟨hadd, hcut⟩ := rangeWords_add hk hwrap back.length
  have hle := rangeWords_le offset front.length
  simp only [writeAt_eq, List.length_append, hadd]
  by_cases halign : offset.toNat % accessAlign = 0
  · rcases hcut with hwhole | hnone
    · rw [writeWords_append hbus hwhole.symm back _ halign, wordOffset, hwhole]
    · rw [hnone, Nat.add_zero, writeWords_front hbus hle back halign]
      rfl
  · have hnone : ∀ length, rangeWords offset length = 0 := fun _ => if_neg halign
    rw [hnone, hnone, Nat.zero_add] at hadd
    rw [hnone, ← hadd]
    rfl

end

/-! ## Transfers over a bus -/

/-- A transfer over a bus goes word by word. -/
structure WordByWord (bus : Bus σ) : Prop where
  /-- Between two words, or outside of the window, nothing is accessed. -/
  refused : ∀ (offset : Word) (buffer bytes : List UInt8) (s : σ) (trace : List Transfer),
    offset.toNat % accessAlign ≠ 0 ∨ windowSize ≤ offset.toNat →
      readAt bus.traced offset buffer (s, trace) = ((0, buffer), (s, trace)) ∧
        writeAt bus.traced offset bytes (s, trace) = (0, (s, trace))
  /-- The words are accessed in order, and the buffer behind those that were accessed stays as it was. -/
  reads : ∀ (offset : Word) (buffer : List UInt8) (s : σ) (trace : List Transfer), ∃ full made shown t,
    readAt bus.traced offset buffer (s, trace) =
        ((accessAlign * full, shown ++ buffer.drop (accessAlign * made.length)), (t, trace ++ made)) ∧
      shown.length = accessAlign * made.length ∧ Sweep .read offset shown (rangeWords offset buffer.length) full made
  writes : ∀ (offset : Word) (bytes : List UInt8) (s : σ) (trace : List Transfer), ∃ full made t,
    writeAt bus.traced offset bytes (s, trace) = (accessAlign * full, (t, trace ++ made)) ∧
      Sweep .write offset bytes (rangeWords offset bytes.length) full made
  /-- It comes to the same where the accesses are not written down. -/
  untraced : ∀ (offset : Word) (buffer bytes : List UInt8) (s : σ) (trace : List Transfer),
    readAt bus offset buffer s =
        ((readAt bus.traced offset buffer (s, trace)).1, (readAt bus.traced offset buffer (s, trace)).2.1) ∧
      writeAt bus offset bytes s =
        ((writeAt bus.traced offset bytes (s, trace)).1, (writeAt bus.traced offset bytes (s, trace)).2.1)

/-- Transfers over a bus move all whole words of their range that lie in the window, and come to the same in one part or in two. -/
structure Seamless (bus : Bus σ) : Prop where
  readCount : ∀ (offset : Word) (buffer : List UInt8) (s : σ),
    (readAt bus offset buffer s).1.1 = accessAlign * rangeWords offset buffer.length
  writeCount : ∀ (offset : Word) (bytes : List UInt8) (s : σ),
    (writeAt bus offset bytes s).1 = accessAlign * rangeWords offset bytes.length
  read : ∀ (offset : Word) (front back : List UInt8) (s : σ), front.length % accessAlign = 0 →
    offset.toNat + front.length < 2 ^ 64 →
      readAt bus offset (front ++ back) s =
        let first := readAt bus offset front s
        let second := readAt bus (offset + UInt64.ofNat front.length) back first.2
        ((first.1.1 + second.1.1, first.1.2 ++ second.1.2), second.2)
  write : ∀ (offset : Word) (front back : List UInt8) (s : σ), front.length % accessAlign = 0 →
    offset.toNat + front.length < 2 ^ 64 →
      writeAt bus offset (front ++ back) s =
        let first := writeAt bus offset front s
        let second := writeAt bus (offset + UInt64.ofNat front.length) back first.2
        (first.1 + second.1, second.2)

/-- A bus whose accesses are written down does what it does without. -/
theorem matches_traced (bus : Bus σ) : bus.Matches (fun s t => s = t.1) bus.traced where
  read offset buffer := by
    rintro s ⟨_, trace⟩ rfl
    exact ⟨rfl, rfl⟩
  write offset bytes := by
    rintro s ⟨_, trace⟩ rfl
    exact ⟨rfl, rfl⟩
  signal := by
    rintro s ⟨_, trace⟩ rfl
    rfl

theorem wordByWord (bus : Bus σ) : WordByWord bus where
  refused offset buffer bytes s trace h := by
    have hnone : ∀ length, rangeWords offset length = 0 := by
      intro length
      rw [rangeWords_eq, transferWords, if_pos h]
      rfl
    rw [readAt_eq, writeAt_eq, hnone, hnone]
    exact ⟨rfl, rfl⟩
  reads offset buffer s trace := by
    rw [readAt_eq]
    exact readWords_traced bus offset _ buffer (rangeWords_le offset _) s trace
  writes offset bytes s trace := by
    rw [writeAt_eq]
    exact writeWords_traced bus offset _ bytes (rangeWords_le offset _) s trace
  untraced offset buffer bytes s trace := by
    obtain ⟨hread, hleft⟩ := (matches_traced bus).readAt offset buffer s (s, trace) rfl
    obtain ⟨hwritten, hleft'⟩ := (matches_traced bus).writeAt offset bytes s (s, trace) rfl
    exact ⟨Prod.ext hread hleft, Prod.ext hwritten hleft'⟩

theorem seamless {bus : Bus σ} (hbus : bus.MovesWords) : Seamless bus where
  readCount offset buffer s := by
    rw [readAt_eq]
    by_cases halign : offset.toNat % accessAlign = 0
    · exact readWords_count hbus (rangeWords_le offset _) halign s
    · rw [rangeWords, if_neg halign]
      rfl
  writeCount offset bytes s := by
    rw [writeAt_eq]
    by_cases halign : offset.toNat % accessAlign = 0
    · exact writeWords_count hbus (rangeWords_le offset _) halign s
    · rw [rangeWords, if_neg halign]
      rfl
  read offset front back s hk hwrap := readAt_append hbus hk hwrap back s
  write offset front back s hk hwrap := writeAt_append hbus hk hwrap back s

/-- Over any bus, a transfer of a range accesses the words of the range that lie in the window, one after the other and with four
bytes each, until one comes out short; it answers four for each word that was moved, and what it did not access of the buffer stays
as it was. Where the range begins between two words, or outside of the window, there are none. Over a device no access comes out
short, and a range may be cut behind any word: its parts show the same bytes, answer the same count together and leave the same
device, also where the cut separates the halves of a word. -/
theorem ranges_of_words (bus : Bus σ) : WordByWord bus ∧ Device.bus.MovesWords ∧ Seamless Device.bus :=
  ⟨wordByWord bus, Device.movesWords_bus, seamless Device.movesWords_bus⟩

/-- A virtine is taken off the Complete Queue by a transfer that is cut between its halves, and ends within a word. -/
theorem ranges_of_words_between_halves :
    let a : Address := ⟨0x500001000, by decide⟩
    let d : Device := (Device.initial 7 1).post a
    let offset := Register.completeHead.address
    let front : List UInt8 := .replicate 4 170
    let back : List UInt8 := .replicate 6 170
    let first := readAt Device.bus offset front d
    let second := readAt Device.bus (offset + UInt64.ofNat front.length) back first.2
    front.length % accessAlign = 0 ∧ offset.toNat + front.length < 2 ^ 64 ∧
      readAt Device.bus offset (front ++ back) d = ((first.1.1 + second.1.1, first.1.2 ++ second.1.2), second.2) ∧
      first.1 = (4, [0, 16, 0, 0]) ∧ second.1 = (4, [5, 0, 0, 0, 170, 170]) ∧ second.2.complete.isEmpty = true := by
  intro a d offset front back first second
  have hk : front.length % accessAlign = 0 := by decide
  have hwrap : offset.toNat + front.length < 2 ^ 64 := by decide
  obtain ⟨-, -, hseamless⟩ := ranges_of_words Device.bus
  exact ⟨hk, hwrap, hseamless.read offset front back d hk hwrap, by decide +kernel, by decide +kernel, by decide +kernel⟩

end Host

end VirtineCleaning

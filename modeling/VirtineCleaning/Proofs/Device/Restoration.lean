import Mathlib.Data.List.Infix
import VirtineCleaning.Proofs.Device.Trail
import VirtineCleaning.Proofs.Memory.Contents

/-!
# Cleaning restores the snapshot

Whatever a run is made of, it writes no byte but those of the virtines that it cleans, as large as the snapshot is at that moment. A
copy that fails writes nothing, and it fails only where one of the two ranges does not lie inside the memory. As long as the
snapshot stays where it is, apart from the virtines cleaned, and these apart from each other, every virtine that was cleaned holds
the bytes that the snapshot had before the run (`restoration_of_run`): it may be cleaned again, but then with the same bytes.
-/

namespace VirtineCleaning

open ByteStore (Copied)
open History

namespace Machine

variable {μ : Type} [VirtineMemory μ]

/-- A step of cleaning takes `a` off the Ready Queue. -/
def Takes (m : Machine μ) (a : Address) : Prop :=
  m.device.isStopping = false ∧ m.device.complete.isFull = false ∧ ∃ ready, m.device.ready.pop = some (a, ready)

omit [VirtineMemory μ] in
/-- A step takes one virtine. -/
theorem Takes.unique {m : Machine μ} {a b : Address} (ha : m.Takes a) (hb : m.Takes b) : a = b := by
  obtain ⟨-, -, _, ha⟩ := ha
  obtain ⟨-, -, _, hb⟩ := hb
  rw [ha] at hb
  cases hb
  rfl

/-- A copy of the snapshot of a machine to `a` that lies outside its memory. -/
def Outside (m : Machine μ) (a : Address) : Prop :=
  0 < m.device.snapshot.size.toNat ∧
    ((ByteStore.size m.memory).toNat < m.device.snapshot.address.toNat + m.device.snapshot.size.toNat ∨
      (ByteStore.size m.memory).toNat < a.word.toNat + m.device.snapshot.size.toNat)

/-- The virtines that the steps of a trail cleaned, in order. -/
def cleanedIn (t : List (Machine μ)) : List Address := t.filterMap (·.cleanNext.1.cleaned?)

/-- The history of a run tells of the same virtines as its trail. -/
theorem cleaned_history (m : Machine μ) (actions : List Action) :
    cleaned (m.history actions) = cleanedIn (m.trail actions) := by
  rw [cleaned, ← map_trail, List.filterMap_map]
  rfl

theorem cleanedIn_append (t u : List (Machine μ)) : cleanedIn (t ++ u) = cleanedIn t ++ cleanedIn u :=
  List.filterMap_append

theorem cleanedIn_singleton (m : Machine μ) : cleanedIn [m] = m.cleanNext.1.cleaned?.toList := by
  rw [cleanedIn, List.filterMap_cons]
  cases m.cleanNext.1.cleaned? <;> rfl

/-- The steps of a run are made with its snapshot if that is the same after each of its actions. -/
theorem snapshot_of_mem_trail {m : Machine μ} {actions : List Action} {snapshot : Snapshot}
    (hsame : ∀ before, before <+: actions → (m.run before).device.snapshot = snapshot) :
    ∀ n ∈ m.trail actions, n.device.snapshot = snapshot := by
  intro n hn
  obtain ⟨before, hbefore, hsettings⟩ := settings_of_mem_trail hn
  exact (congrArg Prod.snd hsettings).trans (hsame before hbefore)

variable [LawfulMemory μ]

/-! ## One step -/

/-- The ways of a step of cleaning, as far as the memory goes: it takes no virtine, restores the one that it takes, or cannot. -/
inductive MemoryCase (m : Machine μ) : CleanStep × Machine μ → Prop where
  | rests {outcome : CleanStep} {d : Device} (hgo : outcome.continues = false) (htakes : ∀ a, ¬m.Takes a) :
      MemoryCase m (outcome, ⟨d, m.memory⟩)
  | cleaned {a : Address} {d : Device} {memory : μ} (htakes : m.Takes a) (hinside : ¬m.Outside a)
      (hcopied : Copied m.memory memory m.device.snapshot.address.toNat a.word.toNat m.device.snapshot.size.toNat) :
      MemoryCase m (.cleaned a, ⟨d, memory⟩)
  | copyFailed {a : Address} {d : Device} (htakes : m.Takes a) (houtside : m.Outside a) :
      MemoryCase m (.copyFailed a, ⟨d, m.memory⟩)

theorem memory_case (m : Machine μ) : MemoryCase m m.cleanNext := by
  unfold cleanNext
  by_cases hs : m.device.isStopping = true
  · rw [if_pos hs]
    exact .rests rfl fun a ht => absurd (ht.1.symm.trans hs) nofun
  rw [if_neg hs]
  have hs := Bool.eq_false_iff.2 hs
  by_cases hf : m.device.complete.isFull = true
  · rw [if_pos hf]
    have hnone : ∀ a, ¬m.Takes a := fun a ht => absurd (ht.2.1.symm.trans hf) nofun
    by_cases he : m.device.ready.isEmpty = true
    · rw [if_pos he]
      exact .rests rfl hnone
    · rw [if_neg he]
      exact .rests rfl hnone
  rw [if_neg hf]
  have hf := Bool.eq_false_iff.2 hf
  cases hp : m.device.ready.pop with
  | none =>
    refine .rests rfl ?_
    rintro a ⟨-, -, ready, ht⟩
    rw [hp] at ht
    cases ht
  | some next =>
    obtain ⟨a, ready⟩ := next
    have htakes : m.Takes a := ⟨hs, hf, ready, hp⟩
    have hcase := VirtineMemory.copy_case m.memory m.device.snapshot.address a.word m.device.snapshot.size
    simp only [restore, Device.withReady]
    generalize VirtineMemory.copy m.memory m.device.snapshot.address a.word m.device.snapshot.size = next at hcase
    cases hcase with
    | copies hinside hcopied =>
      refine .cleaned htakes ?_ hcopied
      rintro ⟨hsize, houtside⟩
      rcases hinside with hzero | ⟨hsource, htarget⟩
      · rw [hzero] at hsize
        exact absurd hsize (by decide)
      · omega
    | refuses hsize houtside =>
      refine .copyFailed htakes ⟨Nat.pos_of_ne_zero fun hzero => hsize ?_, houtside⟩
      exact UInt64.toNat_inj.1 hzero

/-- A step fails to copy exactly if it takes a virtine and the copy does not lie inside the memory. -/
theorem cleanNext_eq_copyFailed_iff (m : Machine μ) (a : Address) :
    m.cleanNext.1 = .copyFailed a ↔ m.Takes a ∧ m.Outside a := by
  have hcase := m.memory_case
  generalize m.cleanNext = next at hcase
  cases hcase with
  | rests hgo htakes =>
    refine ⟨?_, fun h => absurd h.1 (htakes a)⟩
    rintro rfl
    cases hgo
  | cleaned htakes hinside =>
    refine ⟨nofun, ?_⟩
    rintro ⟨ha, houtside⟩
    rw [ha.unique htakes] at houtside
    exact absurd houtside hinside
  | copyFailed htakes houtside =>
    constructor
    · intro h
      cases h
      exact ⟨htakes, houtside⟩
    · rintro ⟨ha, -⟩
      rw [ha.unique htakes]

/-- A step that fails to copy changes no byte. -/
theorem memory_of_copyFailed {m : Machine μ} {a : Address} (h : m.cleanNext.1 = .copyFailed a) :
    m.cleanNext.2.memory = m.memory := by
  have hcase := m.memory_case
  generalize m.cleanNext = next at hcase h
  cases hcase with
  | rests => rfl
  | cleaned => cases h
  | copyFailed => rfl

/-- A step that cleans a virtine copies the snapshot over it. -/
theorem copied_of_cleaned {m : Machine μ} {a : Address} (h : m.cleanNext.1 = .cleaned a) :
    Copied m.memory m.cleanNext.2.memory m.device.snapshot.address.toNat a.word.toNat m.device.snapshot.size.toNat := by
  have hcase := m.memory_case
  generalize m.cleanNext = next at hcase h
  cases hcase with
  | rests hgo =>
    cases h
    cases hgo
  | cleaned _ _ hcopied =>
    cases h
    exact hcopied
  | copyFailed => cases h

/-! ## What a run changes -/

/-- The memory keeps its size, and differs from `start` only in virtines that a step of the trail cleaned. -/
structure ChangesIn (start : μ) (t : List (Machine μ)) (memory : μ) : Prop where
  size_eq : ByteStore.size memory = ByteStore.size start
  changed : ∀ i, byte? memory i ≠ byte? start i →
    ∃ n ∈ t, ∃ a, n.cleanNext.1 = .cleaned a ∧ i ∈ places a.word n.device.snapshot.size

/-- A step of cleaning changes nothing but the places of the virtine that it cleans. -/
theorem ChangesIn.cleanNext {start : μ} {t : List (Machine μ)} {m : Machine μ} (h : ChangesIn start t m.memory) :
    ChangesIn start (t ++ [m]) m.cleanNext.2.memory := by
  have hlast : m ∈ t ++ [m] := List.mem_append_right _ List.mem_cons_self
  have hmore : ∀ i, byte? m.memory i ≠ byte? start i →
      ∃ n ∈ t ++ [m], ∃ a, n.cleanNext.1 = .cleaned a ∧ i ∈ places a.word n.device.snapshot.size := by
    intro i hi
    obtain ⟨n, hn, hchanged⟩ := h.changed i hi
    exact ⟨n, List.mem_append_left _ hn, hchanged⟩
  have hcase := m.memory_case
  generalize hnext : m.cleanNext = next at hcase
  cases hcase with
  | rests => exact ⟨h.size_eq, hmore⟩
  | copyFailed => exact ⟨h.size_eq, hmore⟩
  | @cleaned a _ memory _ _ hcopied =>
    refine ⟨hcopied.size_eq.trans h.size_eq, ?_⟩
    intro i hi
    by_cases hplace : i ∈ places a.word m.device.snapshot.size
    · exact ⟨m, hlast, a, by rw [hnext], hplace⟩
    · rw [hcopied.byte_eq, if_neg (mt mem_places.2 hplace)] at hi
      exact hmore i hi

theorem keeps_changesIn (start : μ) : Keeps fun (m : Machine μ) t => ChangesIn start t m.memory where
  read _ _ h := h
  write _ _ h := h
  signal h := h
  requestStop h := h
  beginPass h := h
  cleanNext h := h.cleanNext
  endPass h := h
  movePhase _ _ _ h := h
  close _ h := h

end Machine

/-! ## What a run restores -/

namespace Snapshot

variable {μ : Type} [VirtineMemory μ] [LawfulMemory μ] {snapshot : Snapshot} {start memory memory' : μ}
  {addresses : List Address} {a : Address}

/-- The snapshot lies apart from the virtines at the addresses, which are as large, and these apart from each other. -/
structure Apart (snapshot : Snapshot) (addresses : List Address) : Prop where
  source : ∀ a ∈ addresses, Disjoint (places snapshot.address snapshot.size) (places a.word snapshot.size)
  virtines : ∀ a ∈ addresses, ∀ b ∈ addresses, a ≠ b →
    Disjoint (places a.word snapshot.size) (places b.word snapshot.size)

/-- The virtines at the addresses hold the bytes that the snapshot had at the start, and so does the snapshot itself. -/
structure Restored (snapshot : Snapshot) (start : μ) (addresses : List Address) (memory : μ) : Prop where
  source : ∀ i < snapshot.size.toNat,
    byte? memory (snapshot.address.toNat + i) = byte? start (snapshot.address.toNat + i)
  virtines : ∀ a ∈ addresses, ∀ i < snapshot.size.toNat,
    byte? memory (a.word.toNat + i) = byte? start (snapshot.address.toNat + i)

/-- Fewer virtines lie apart, too. -/
theorem Apart.of_subset {fewer : List Address} (h : snapshot.Apart addresses) (hsub : fewer ⊆ addresses) :
    snapshot.Apart fewer where
  source a ha := h.source a (hsub ha)
  virtines a ha b hb := h.virtines a (hsub ha) b (hsub hb)

/-- The places of a range are those counted from its address. -/
theorem add_mem_places {address length : Word} {i : Nat} (hi : i < length.toNat) :
    address.toNat + i ∈ places address length :=
  mem_places.2 ⟨Nat.le_add_right _ _, Nat.add_lt_add_left hi _⟩

/-- One more virtine is restored by a copy of the snapshot, be it for the first time or again. -/
theorem Restored.copy (h : snapshot.Restored start addresses memory)
    (hcopied : Copied memory memory' snapshot.address.toNat a.word.toNat snapshot.size.toNat)
    (hapart : snapshot.Apart (addresses ++ [a])) : snapshot.Restored start (addresses ++ [a]) memory' := by
  have ha : a ∈ addresses ++ [a] := List.mem_append_right _ List.mem_cons_self
  have helsewhere : ∀ i, i ∉ places a.word snapshot.size → byte? memory' i = byte? memory i := by
    intro i hi
    rw [hcopied.byte_eq, if_neg (mt mem_places.2 hi)]
  constructor
  · intro i hi
    rw [helsewhere _ (Set.disjoint_left.1 (hapart.source a ha) (add_mem_places hi))]
    exact h.source i hi
  · intro b hb i hi
    by_cases hba : b = a
    · rw [hba, hcopied.byte_eq, if_pos ⟨Nat.le_add_right _ _, Nat.add_lt_add_left hi _⟩, Nat.add_sub_cancel_left]
      exact h.source i hi
    · have hold : b ∈ addresses := by
        rcases List.mem_append.1 hb with hb | hb
        · exact hb
        · exact absurd (List.mem_singleton.1 hb) hba
      rw [helsewhere _ (Set.disjoint_left.1 (hapart.virtines b hb a ha hba) (add_mem_places hi))]
      exact h.virtines b hold i hi

end Snapshot

namespace Machine

variable {μ : Type} [VirtineMemory μ] [LawfulMemory μ]

/-- Under a snapshot that stays apart from what is cleaned, whatever was cleaned is restored. -/
def Restores (snapshot : Snapshot) (start : μ) (t : List (Machine μ)) (memory : μ) : Prop :=
  (∀ n ∈ t, n.device.snapshot = snapshot) → snapshot.Apart (cleanedIn t) → snapshot.Restored start (cleanedIn t) memory

/-- A step of cleaning restores its virtine, and leaves those before it restored. -/
theorem Restores.cleanNext {snapshot : Snapshot} {start : μ} {t : List (Machine μ)} {m : Machine μ}
    (h : Restores snapshot start t m.memory) : Restores snapshot start (t ++ [m]) m.cleanNext.2.memory := by
  intro hsame hapart
  have hsnapshot : m.device.snapshot = snapshot := hsame m (List.mem_append_right _ List.mem_cons_self)
  rw [cleanedIn_append, cleanedIn_singleton] at hapart ⊢
  have hold := h (fun n hn => hsame n (List.mem_append_left _ hn))
    (hapart.of_subset (List.subset_append_left _ _))
  have hcase := m.memory_case
  generalize m.cleanNext = next at hcase hapart
  cases hcase with
  | @rests outcome d hgo =>
    have hnone : outcome.cleaned? = none := by
      cases outcome with
      | cleaned => cases hgo
      | _ => rfl
    rw [hnone, Option.toList_none, List.append_nil]
    exact hold
  | @copyFailed a =>
    have hnone : (CleanStep.copyFailed a).cleaned? = none := rfl
    rw [hnone, Option.toList_none, List.append_nil]
    exact hold
  | cleaned _ _ hcopied =>
    rw [hsnapshot] at hcopied
    exact hold.copy hcopied hapart

theorem keeps_restores (snapshot : Snapshot) (start : μ) :
    Keeps fun (m : Machine μ) t => Restores snapshot start t m.memory where
  read _ _ h := h
  write _ _ h := h
  signal h := h
  requestStop h := h
  beginPass h := h
  cleanNext h := h.cleanNext
  endPass h := h
  movePhase _ _ _ h := h
  close _ h := h

/-- A run of any actions changes no byte but in virtines that a step cleaned, as large as the snapshot was at that step. A step fails
to copy exactly if it takes a virtine and its range or that of the snapshot, which is not empty, does not lie inside the memory, and
then changes nothing. If the snapshot is the same throughout, and apart from the virtines cleaned and these from each other, then
after any part of the run all that was cleaned so far holds the bytes that the snapshot had at the start, and so does the snapshot. -/
theorem restoration_of_run (m : Machine μ) (actions : List Action) :
    (∀ i, byte? (m.run actions).memory i ≠ byte? m.memory i →
      ∃ n ∈ m.trail actions, ∃ a, n.cleanNext.1 = .cleaned a ∧ i ∈ places a.word n.device.snapshot.size) ∧
      ByteStore.size (m.run actions).memory = ByteStore.size m.memory ∧
      (∀ n ∈ m.trail actions, ∀ a, n.cleanNext.1 = .copyFailed a → n.cleanNext.2.memory = n.memory) ∧
      (∀ n ∈ m.trail actions, ∀ a, n.cleanNext.1 = .copyFailed a ↔ n.Takes a ∧ n.Outside a) ∧
      ((∀ before, before <+: actions → (m.run before).device.snapshot = m.device.snapshot) →
        m.device.snapshot.Apart (cleaned (m.history actions)) →
        ∀ before, before <+: actions →
          m.device.snapshot.Restored m.memory (cleaned (m.history before)) (m.run before).memory) := by
  have hnone : ChangesIn m.memory [] m.memory := ⟨rfl, fun i hi => absurd rfl hi⟩
  have hchanges : ChangesIn m.memory (m.trail actions) (m.run actions).memory :=
    (keeps_changesIn m.memory).run actions hnone
  refine ⟨hchanges.changed, hchanges.size_eq, fun n _ a => memory_of_copyFailed,
    fun n _ a => n.cleanNext_eq_copyFailed_iff a, ?_⟩
  intro hsame hapart before hbefore
  have hfresh : Restores m.device.snapshot m.memory [] m.memory := fun _ _ => ⟨fun _ _ => rfl, List.forall_mem_nil _⟩
  have hrestores : Restores m.device.snapshot m.memory (m.trail before) (m.run before).memory :=
    (keeps_restores m.device.snapshot m.memory).run before hfresh
  have hsteps : ∀ n ∈ m.trail before, n.device.snapshot = m.device.snapshot :=
    snapshot_of_mem_trail fun part hpart => hsame part (hpart.trans hbefore)
  have hcleaned : cleaned (m.history before) ⊆ cleaned (m.history actions) := by
    obtain ⟨more, rfl⟩ := hbefore
    rw [cleaned_history, cleaned_history, trail_append, cleanedIn_append]
    exact List.subset_append_left _ _
  have hfewer := hapart.of_subset hcleaned
  rw [cleaned_history] at hfewer ⊢
  exact hrestores hsteps hfewer

/-- Two virtines of two bytes, of which one is cleaned twice, beside a snapshot of the first two bytes. -/
theorem restoration_of_run_cleaned_twice :
    let memory : DenseMemory := ⟨8, ⟨#[1, 2, 0, 0, 0, 0, 0, 0]⟩, rfl⟩
    let m := (fresh memory 1 (.ofCapacity 1)).run [.write Register.snapshotSize.address [2, 0, 0, 0, 0, 0, 0, 0]]
    let actions : List Action := [.write Register.readyTail.address [2, 0, 0, 0, 0, 0, 0, 0],
      .write Register.readyTail.address [4, 0, 0, 0, 0, 0, 0, 0], .processReadyQueue,
      .write Register.readyTail.address [2, 0, 0, 0, 0, 0, 0, 0], .processReadyQueue]
    (∀ before, before <+: actions → (m.run before).device.snapshot = m.device.snapshot) ∧
      (cleaned (m.history actions)).map (·.word) = [2, 4, 2] ∧ m.device.snapshot.Apart (cleaned (m.history actions)) ∧
      byte? (m.run actions).memory 5 = some 2 := by
  intro memory m actions
  have hsame : ∀ before ∈ actions.inits, (m.run before).device.snapshot = m.device.snapshot := by decide +kernel
  have hsteady : ∀ before, before <+: actions → (m.run before).device.snapshot = m.device.snapshot :=
    fun before hbefore => hsame before ((List.mem_inits _ _).2 hbefore)
  have hcleaned : cleaned (m.history actions) = [⟨2, by decide⟩, ⟨4, by decide⟩, ⟨2, by decide⟩] := by decide +kernel
  have hsnapshot : m.device.snapshot = ⟨0, 2⟩ := by decide +kernel
  have hapart : m.device.snapshot.Apart (cleaned (m.history actions)) := by
    rw [hcleaned, hsnapshot]
    constructor
    · intro a ha
      refine disjoint_places (Or.inl ?_)
      revert a
      decide
    · intro a ha b hb hab
      refine disjoint_places ?_
      revert a b
      decide
  obtain ⟨-, -, -, -, hrestored⟩ := restoration_of_run m actions
  have hvirtine := (hrestored hsteady hapart actions (List.prefix_refl _)).virtines ⟨4, by decide⟩
    (by rw [hcleaned]; decide) 1 (by rw [hsnapshot]; decide)
  rw [hsnapshot] at hvirtine
  exact ⟨hsteady, by rw [hcleaned]; rfl, hapart, hvirtine⟩

end Machine

end VirtineCleaning

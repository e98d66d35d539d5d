import VirtineCleaning.Memory.Dense
import VirtineCleaning.Proofs.Device.Reachable
import VirtineCleaning.Proofs.Device.Restoration

/-!
# What one pass does

A pass takes virtines off the Ready Queue and restores each of them, until nothing waits or the Complete Queue is full. So it is said
by two lists: the virtines that it handles, and those that it leaves (`Pass`). Restoring a virtine does not look at the Ready Queue,
so the pass does to the machine what restoring the handled ones in order does, and then the queue holds what is left. A copy that
fails frees a slot of the Ready Queue and fills none of the Complete Queue, so what is handled is the shortest part of the Ready
Queue that has as many good addresses as the Complete Queue has room for, or all of it (`pass_of_reachable`).
-/

namespace VirtineCleaning

/-- Restoring does not look at the Ready Queue. -/
theorem Device.aside_withReady (ready : VirtineQueue) : Aside (·.withReady ready) :=
  ⟨fun _ => rfl, fun _ => rfl, fun _ => rfl, fun _ => rfl, fun _ => rfl, fun _ _ => rfl, fun _ => rfl, fun _ => rfl⟩

/-! ## Passes that stall -/

/-- A device stalls over the virtines that a pass leaves, if there are any. -/
def Device.stallOver (d : Device) (left : List Address) : Device := if left.isEmpty then d else d.stall

/-- It counts the stall unless it is stalled already. -/
theorem Device.stallOver_eq (d : Device) (left : List Address) :
    d.stallOver left =
      { d with
        isStalled := d.isStalled || !left.isEmpty
        stats := { d.stats with stalls := d.stats.stalls + if left.isEmpty || d.isStalled then 0 else 1 } } := by
  cases left with
  | nil =>
    rw [List.isEmpty_nil, Bool.not_true, Bool.or_false, Bool.true_or, if_pos rfl]
    rfl
  | cons a rest =>
    rw [List.isEmpty_cons, Bool.not_false, Bool.or_true, Bool.false_or]
    change d.stall = _
    unfold stall
    split
    · rename_i hstalled
      rw [← hstalled]
      rfl
    · rfl

namespace Machine

variable {μ : Type} [VirtineMemory μ] {m : Machine μ} {a : Address} {handled left waiting clean : List Address}

/-! ## Restoring virtines one after the other -/

/-- The ways of restoring a virtine: it is finished, or its copy fails. -/
inductive RestoreCase (m : Machine μ) (a : Address) : CleanStep × Machine μ → Prop where
  | cleaned (memory : μ) : RestoreCase m a (.cleaned a, ⟨m.device.finish a, memory⟩)
  | copyFailed (memory : μ) : RestoreCase m a (.copyFailed a, ⟨m.device.fail, memory⟩)

theorem restore_case (m : Machine μ) (a : Address) : RestoreCase m a (m.restore a) := by
  unfold restore
  split
  · exact .cleaned _
  · exact .copyFailed _

/-- A pass goes on after each of them. -/
theorem continues_restore (m : Machine μ) (a : Address) : (m.restore a).1.continues = true := by
  have hcase := m.restore_case a
  generalize m.restore a = next at hcase
  cases hcase <;> rfl

/-- The machine after virtines were restored, one after the other. -/
def restoreAll (m : Machine μ) : List Address → Machine μ
  | [] => m
  | a :: rest => (m.restore a).2.restoreAll rest

/-- How restoring virtines comes out, one after the other. -/
def restorations (m : Machine μ) : List Address → List CleanStep
  | [] => []
  | a :: rest => (m.restore a).1 :: (m.restore a).2.restorations rest

/-- What lies aside of cleaning stays aside of all restorations. -/
theorem restoreAll_mapDevice {f : Device → Device} (hf : Device.Aside f) (m : Machine μ) (addresses : List Address) :
    (m.mapDevice f).restoreAll addresses = (m.restoreAll addresses).mapDevice f := by
  induction addresses generalizing m with
  | nil => rfl
  | cons a rest ih => rw [restoreAll, restore_mapDevice hf, ih, restoreAll]

theorem restorations_mapDevice {f : Device → Device} (hf : Device.Aside f) (m : Machine μ) (addresses : List Address) :
    (m.mapDevice f).restorations addresses = m.restorations addresses := by
  induction addresses generalizing m with
  | nil => rfl
  | cons a rest ih => rw [restorations, restore_mapDevice hf, ih, restorations]

theorem restoreAll_append (m : Machine μ) (addresses more : List Address) :
    m.restoreAll (addresses ++ more) = (m.restoreAll addresses).restoreAll more := by
  induction addresses generalizing m with
  | nil => rfl
  | cons a rest ih => exact ih _

theorem restorations_append (m : Machine μ) (addresses more : List Address) :
    m.restorations (addresses ++ more) = m.restorations addresses ++ (m.restoreAll addresses).restorations more := by
  induction addresses generalizing m with
  | nil => rfl
  | cons a rest ih => rw [List.cons_append, restorations, ih, restorations, List.cons_append, restoreAll]

theorem length_restorations (m : Machine μ) (addresses : List Address) :
    (m.restorations addresses).length = addresses.length := by
  induction addresses generalizing m with
  | nil => rfl
  | cons a rest ih => rw [restorations, List.length_cons, ih, List.length_cons]

/-- Restoring virtines counts those that are cleaned and those that are dropped, and touches besides only the Complete Queue and what
notifications are about. -/
theorem restoreAll_frame (m : Machine μ) (addresses : List Address) :
    ∃ complete cleanedCount notifications line, (m.restoreAll addresses).device =
      { m.device with
        complete, cleanedCount
        stats := { m.device.stats with
          cleaned := m.device.stats.cleaned + ((m.restorations addresses).filterMap CleanStep.cleaned?).length
          copyFailures := m.device.stats.copyFailures + ((m.restorations addresses).filterMap CleanStep.failed?).length
          notifications }
        line } := by
  induction addresses generalizing m with
  | nil => exact ⟨_, _, _, _, rfl⟩
  | cons a rest ih =>
    obtain ⟨complete, cleanedCount, notifications, line, hrest⟩ := ih (m.restore a).2
    refine ⟨complete, cleanedCount, notifications, line, ?_⟩
    have hcase := m.restore_case a
    rw [restoreAll, hrest, restorations]
    generalize m.restore a = next at hcase
    cases hcase with
    | cleaned =>
      obtain ⟨_, _, _, heq⟩ := m.device.finish_eq a
      rw [heq, List.filterMap_cons, List.filterMap_cons]
      dsimp only [CleanStep.cleaned?, CleanStep.failed?]
      rw [List.length_cons, Nat.add_assoc, Nat.add_comm 1]
    | copyFailed =>
      rw [List.filterMap_cons, List.filterMap_cons]
      dsimp only [CleanStep.cleaned?, CleanStep.failed?, Device.fail]
      rw [List.length_cons, Nat.add_assoc, Nat.add_comm 1]

/-- A virtine that is cleaned while there is room enters the Complete Queue, and one whose copy fails does not. -/
theorem complete_restore (hc : m.device.complete.Holds clean) (hroom : m.device.complete.isFull = false) (a : Address) :
    (m.restore a).2.device.complete.Holds (clean ++ [(m.restore a).1].filterMap CleanStep.cleaned?) := by
  have hcase := m.restore_case a
  generalize m.restore a = next at hcase
  cases hcase with
  | cleaned =>
    have hlt : clean.length < maxVirtines := by
      have hle := hc.length_le
      rw [hc.isFull_eq, decide_eq_false_iff_not] at hroom
      omega
    obtain ⟨complete, hinsert, hposted, -⟩ := hc.insert_of_room hlt a
    obtain ⟨_, _, _, heq⟩ := m.device.finish_eq a
    rw [heq]
    dsimp only
    rw [Device.completeWith, hinsert]
    exact hposted
  | copyFailed =>
    change m.device.complete.Holds (clean ++ [])
    rw [List.append_nil]
    exact hc

/-! ## A pass by the virtines that it handles -/

/-- The course of the loop of a pass that is not stopped: it handles virtines one after the other and leaves the others, either
because none is left, or because the Complete Queue is full. -/
inductive Pass : Machine μ → (handled left : List Address) → Prop where
  | drained {m : Machine μ} (hr : m.device.ready.Holds []) (hnext : m.cleanNext = (.drained, m)) : Pass m [] []
  | stalled {m : Machine μ} {a : Address} {rest : List Address} (hr : m.device.ready.Holds (a :: rest))
      (hf : m.device.complete.isFull = true) (hnext : m.cleanNext = (.stalled, m.mapDevice Device.stall)) :
      Pass m [] (a :: rest)
  | restored {m : Machine μ} {a : Address} {handled left : List Address} {ready : VirtineQueue}
      (hf : m.device.complete.isFull = false)
      (hnext : m.cleanNext = ((m.restore a).1, (m.restore a).2.mapDevice (·.withReady ready)))
      (hrest : Pass ((m.restore a).2.mapDevice (·.withReady ready)) handled left) : Pass m (a :: handled) left

/-- Every loop takes such a course. -/
theorem pass_of_holds (hs : m.device.isStopping = false) (hr : m.device.ready.Holds waiting) :
    ∃ handled left, waiting = handled ++ left ∧ Pass m handled left := by
  have hs' : ¬m.device.isStopping = true := Bool.eq_false_iff.1 hs
  induction waiting generalizing m with
  | nil =>
    refine ⟨[], [], rfl, .drained hr ?_⟩
    have hempty : m.device.ready.isEmpty = true := hr.isEmpty_eq
    unfold cleanNext
    rw [if_neg hs', if_pos hempty, hr.pop_of_nil, ite_self]
  | cons a rest ih =>
    have hoccupied : ¬m.device.ready.isEmpty = true := Bool.eq_false_iff.1 hr.isEmpty_eq
    by_cases hf : m.device.complete.isFull = true
    · refine ⟨[], a :: rest, rfl, .stalled hr hf ?_⟩
      unfold cleanNext
      rw [if_neg hs', if_pos hf, if_neg hoccupied]
    · obtain ⟨ready, hpop, hholds, -⟩ := hr.pop_of_cons
      have hnext : m.cleanNext = ((m.restore a).1, (m.restore a).2.mapDevice (·.withReady ready)) := by
        unfold cleanNext
        rw [if_neg hs', if_neg hf, hpop]
        exact restore_mapDevice (Device.aside_withReady ready) m a
      have hgoes : ((m.restore a).2.mapDevice (·.withReady ready)).device.isStopping = false :=
        (frame_restore m a).2.2.2.trans hs
      obtain ⟨handled, left, rfl, hpass⟩ := ih hgoes hholds (Bool.eq_false_iff.1 hgoes)
      exact ⟨a :: handled, left, rfl, .restored (Bool.eq_false_iff.2 hf) hnext hpass⟩

/-- A step that restores a virtine does not end the pass. -/
theorem continues_of_restored {n : Machine μ} (hnext : m.cleanNext = ((m.restore a).1, n)) :
    m.cleanNext.1.continues = true := by
  rw [hnext]
  exact m.continues_restore a

/-- The step that ends a pass, by what it leaves. -/
def lastStep (left : List Address) : CleanStep := if left.isEmpty then .drained else .stalled

namespace Pass

variable {ready : VirtineQueue}

/-- The steps of a pass restore what it handles. -/
theorem passSteps_eq (h : Pass m handled left) : m.passSteps = m.restorations handled ++ [lastStep left] := by
  induction h with
  | drained hr hnext =>
    rw [passSteps, hnext]
    rfl
  | stalled hr hf hnext =>
    rw [passSteps, hnext]
    rfl
  | @restored m a handled left ready hf hnext hrest ih =>
    rw [passSteps, if_pos (continues_of_restored hnext), hnext, ih, restorations_mapDevice (Device.aside_withReady ready)]
    rfl

/-- A pass does to the machine what restoring the virtines does that it handles, and its Ready Queue holds those that it leaves. -/
theorem cleanAll_eq (h : Pass m handled left) (report : Report) :
    ∃ ready, ready.Holds left ∧
      (m.cleanAll report).2 = (m.restoreAll handled).mapDevice fun d => (d.withReady ready).stallOver left := by
  induction h generalizing report with
  | @drained m hr hnext =>
    refine ⟨m.device.ready, hr, ?_⟩
    rw [cleanAll, hnext]
    rfl
  | @stalled m a rest hr hf hnext =>
    refine ⟨m.device.ready, hr, ?_⟩
    rw [cleanAll, hnext]
    rfl
  | @restored m a handled left ready hf hnext hrest ih =>
    have hall : m.cleanAll report = m.cleanNext.2.cleanAll (report.record m.cleanNext.1) := by
      rw [cleanAll]
      exact if_pos (continues_of_restored hnext)
    have hmachine : m.cleanNext.2 = (m.restore a).2.mapDevice (·.withReady ready) := congrArg Prod.snd hnext
    obtain ⟨ready', hholds, heq⟩ := ih (report.record m.cleanNext.1)
    refine ⟨ready', hholds, ?_⟩
    rw [hall, hmachine, heq, restoreAll_mapDevice (Device.aside_withReady ready)]
    rfl

/-- While a pass goes on there is room in the Complete Queue, and it leaves virtines only when there is none. -/
theorem isFull_restoreAll (h : Pass m handled left) :
    (∀ before a, before ++ [a] <+: handled → (m.restoreAll before).device.complete.isFull = false) ∧
      (left ≠ [] → (m.restoreAll handled).device.complete.isFull = true) := by
  induction h with
  | drained => exact ⟨fun before a hb => absurd (List.prefix_nil.1 hb) (by simp), fun hleft => absurd rfl hleft⟩
  | stalled hr hf => exact ⟨fun before a hb => absurd (List.prefix_nil.1 hb) (by simp), fun _ => hf⟩
  | @restored m a handled left ready hf hnext hrest ih =>
    simp only [restoreAll_mapDevice (Device.aside_withReady ready)] at ih
    obtain ⟨hroom, hfull⟩ := ih
    refine ⟨?_, hfull⟩
    intro before b hb
    cases before with
    | nil => exact hf
    | cons c before =>
      rw [List.cons_append, List.cons_prefix_cons] at hb
      obtain ⟨rfl, hb⟩ := hb
      exact hroom before b hb

/-- So the virtines that were cleaned enter the Complete Queue, in order. -/
theorem holds_restoreAll (h : Pass m handled left) (hc : m.device.complete.Holds clean) {before : List Address}
    (hb : before <+: handled) :
    (m.restoreAll before).device.complete.Holds (clean ++ (m.restorations before).filterMap CleanStep.cleaned?) := by
  induction before using List.reverseRecOn with
  | nil => simpa [restoreAll, restorations] using hc
  | append_singleton before a ih =>
    have hholds := complete_restore (ih ((List.prefix_append _ _).trans hb)) (h.isFull_restoreAll.1 before a hb) a
    rw [restoreAll_append, restorations_append, List.filterMap_append, ← List.append_assoc]
    exact hholds

/-- Where the Complete Queue has room for all that waits, nothing is left. -/
theorem left_eq_nil (h : Pass m handled left) (hc : m.device.complete.Holds clean)
    (hroom : clean.length + (handled ++ left).length ≤ maxVirtines) : left = [] := by
  by_contra hleft
  have hpos := List.length_pos_iff.2 hleft
  have hholds := h.holds_restoreAll hc (List.prefix_refl _)
  have hfull := h.isFull_restoreAll.2 hleft
  have hle := (m.restorations handled).length_filterMap_le CleanStep.cleaned?
  rw [length_restorations] at hle
  rw [hholds.isFull_eq, decide_eq_true_iff, List.length_append] at hfull
  rw [List.length_append] at hroom
  omega

end Pass

/-! ## Reports -/

/-- A report counts the steps that were recorded. -/
theorem foldl_record (report : Report) (steps : List CleanStep) :
    steps.foldl Report.record report =
      { report with
        cleaned := report.cleaned + (steps.filterMap CleanStep.cleaned?).length
        copyFailures := report.copyFailures + (steps.filterMap CleanStep.failed?).length
        stalled := report.stalled || steps.contains .stalled } := by
  induction steps generalizing report with
  | nil => simp
  | cons step rest ih =>
    rw [List.foldl_cons, ih]
    cases step <;> simp [Report.record, List.filterMap_cons, Nat.add_assoc, Nat.add_comm 1]

/-- The report of a pass is that of its steps. -/
theorem cleanAll_report (m : Machine μ) (report : Report) :
    (m.cleanAll report).1 = m.passSteps.foldl Report.record report := by
  fun_induction cleanAll m report with
  | case1 m report next hgo ih =>
    rw [passSteps, if_pos hgo, List.foldl_cons]
    exact ih
  | case2 m report next hhalt =>
    rw [passSteps, if_neg hhalt]
    rfl

/-! ## Which copies come out well -/

end Machine

/-- A copy of the snapshot to an address can be made in a memory of `size` bytes: it is empty, or both its ranges lie inside. -/
def Snapshot.Fits (s : Snapshot) (size : Word) (a : Address) : Prop :=
  s.size = 0 ∨ s.address.toNat + s.size.toNat ≤ size.toNat ∧ a.word.toNat + s.size.toNat ≤ size.toNat

instance (s : Snapshot) (size : Word) (a : Address) : Decidable (s.Fits size a) :=
  inferInstanceAs (Decidable (_ ∨ _))

namespace Machine

variable {μ : Type} [VirtineMemory μ] {m : Machine μ} {handled left clean : List Address}

/-- The virtine at an address can be restored. -/
def good (m : Machine μ) (a : Address) : Bool := decide (m.device.snapshot.Fits (ByteStore.size m.memory) a)

variable [LawfulMemory μ]

/-- Restoring a virtine comes out well exactly if the copy can be made, and leaves the size of the memory. -/
theorem restore_outcome (m : Machine μ) (a : Address) :
    (m.restore a).1 = (if m.good a then .cleaned a else .copyFailed a) ∧
      ByteStore.size (m.restore a).2.memory = ByteStore.size m.memory := by
  have hcase := VirtineMemory.copy_case m.memory m.device.snapshot.address a.word m.device.snapshot.size
  unfold restore
  generalize VirtineMemory.copy m.memory m.device.snapshot.address a.word m.device.snapshot.size = next at hcase
  cases hcase with
  | copies hinside hcopied =>
    have hgood : m.good a = true := decide_eq_true hinside
    rw [if_pos hgood]
    exact ⟨rfl, hcopied.size_eq⟩
  | refuses hlength houtside =>
    have hbad : ¬m.good a = true := by
      intro hgood
      rcases of_decide_eq_true hgood with hzero | hinside
      · exact hlength hzero
      · omega
    rw [if_neg hbad]
    exact ⟨rfl, rfl⟩

/-- So the same copies can be made afterwards. -/
theorem good_restore (m : Machine μ) (a : Address) : (m.restore a).2.good = m.good := by
  obtain ⟨_, _, _, _, hdevice⟩ := m.restoreAll_frame [a]
  have hdevice : (m.restore a).2.device = _ := hdevice
  funext b
  unfold good
  rw [hdevice, (m.restore_outcome a).2]

/-- Which of the virtines are cleaned is known beforehand. -/
theorem restorations_eq (m : Machine μ) (addresses : List Address) :
    m.restorations addresses = addresses.map fun a => if m.good a then .cleaned a else .copyFailed a := by
  induction addresses generalizing m with
  | nil => rfl
  | cons a rest ih => rw [restorations, ih, (m.restore_outcome a).1, good_restore, List.map_cons]

/-- Those are cleaned whose copy can be made. -/
theorem cleaned_restorations (m : Machine μ) (addresses : List Address) :
    (m.restorations addresses).filterMap CleanStep.cleaned? = addresses.filter m.good := by
  rw [restorations_eq, List.filterMap_map, ← List.filterMap_eq_filter]
  congr 1
  funext a
  by_cases hgood : m.good a = true <;> simp [hgood, Option.guard]

theorem failed_restorations (m : Machine μ) (addresses : List Address) :
    (m.restorations addresses).filterMap CleanStep.failed? = addresses.filter fun a => !m.good a := by
  rw [restorations_eq, List.filterMap_map, ← List.filterMap_eq_filter]
  congr 1
  funext a
  by_cases hgood : m.good a = true <;> simp [hgood, Option.guard]

end Machine

/-! ## How far a pass gets -/

/-- `part` is the shortest prefix of a list with `count` elements that satisfy `p`, or all of the list where no prefix has as
many. -/
def IsShortestWith {α : Type} (p : α → Bool) (count : Nat) (list part : List α) : Prop :=
  part <+: list ∧ part.countP p = count ∧ (∀ other, other <+: list → other.countP p = count → part.length ≤ other.length) ∨
    part = list ∧ ∀ other, other <+: list → other.countP p ≠ count

/-- A prefix is the shortest one if every shorter one has fewer of the elements, and it has all of them that there may be unless it is
the whole list. -/
theorem isShortestWith_of_prefix {α : Type} {p : α → Bool} {count : Nat} {list part rest : List α} (hlist : list = part ++ rest)
    (hle : part.countP p ≤ count) (hfull : rest ≠ [] → part.countP p = count)
    (hfewer : ∀ before a, before ++ [a] <+: part → before.countP p < count) : IsShortestWith p count list part := by
  have hpart : part <+: list := ⟨rest, hlist.symm⟩
  -- a prefix with as many elements is not a proper part of this one
  have hshortest : ∀ other, other <+: list → other.countP p = count → part.length ≤ other.length := by
    intro other hother hcount
    by_contra hlt
    obtain ⟨more, rfl⟩ : other <+: part := List.prefix_of_prefix_length_le hother hpart (by omega)
    cases more with
    | nil => simp at hlt
    | cons a more =>
      have := hfewer other a ⟨more, by simp⟩
      omega
  by_cases heq : part.countP p = count
  · exact Or.inl ⟨hpart, heq, hshortest⟩
  · have hrest : rest = [] := by
      by_contra hrest
      exact heq (hfull hrest)
    subst hrest
    rw [List.append_nil] at hlist
    refine Or.inr ⟨hlist.symm, ?_⟩
    intro other hother hcount
    have hmore := hother.sublist.countP_le (p := p)
    rw [hlist] at hmore
    omega

namespace Machine

variable {μ : Type} [VirtineMemory μ] [LawfulMemory μ] {m : Machine μ} {handled left clean : List Address}

/-- A pass gets as far as the Complete Queue has room. -/
theorem Pass.isShortestWith (h : Pass m handled left) (hc : m.device.complete.Holds clean) :
    IsShortestWith m.good (maxVirtines - clean.length) (handled ++ left) handled := by
  obtain ⟨hroom, hfull⟩ := h.isFull_restoreAll
  have hcount : ∀ before, before <+: handled →
      (m.restoreAll before).device.complete.Holds (clean ++ before.filter m.good) := by
    intro before hb
    rw [← cleaned_restorations]
    exact h.holds_restoreAll hc hb
  have hlength : ∀ before : List Address, (clean ++ before.filter m.good).length = clean.length + before.countP m.good := by
    intro before
    rw [List.length_append, List.countP_eq_length_filter]
  have hall := hcount handled (List.prefix_refl _)
  have hle := hall.length_le
  rw [hlength] at hle
  refine isShortestWith_of_prefix rfl (by omega) ?_ ?_
  · intro hleft
    have hfull := hfull hleft
    rw [hall.isFull_eq, decide_eq_true_iff, hlength] at hfull
    omega
  · intro before a hb
    have hholds := hcount before ((List.prefix_append _ _).trans hb)
    have hless := hholds.length_le
    have hroom := hroom before a hb
    rw [hholds.isFull_eq, decide_eq_false_iff_not, hlength] at hroom
    rw [hlength] at hless
    omega

/-- The report of a pass tells how many good and bad addresses it handled, and whether it left any. -/
theorem Pass.report_eq (h : Pass m handled left) :
    (m.cleanAll {}).1 =
      { cleaned := handled.countP m.good
        copyFailures := handled.countP fun a => !m.good a
        stalled := !left.isEmpty } := by
  have hlast : [lastStep left].filterMap CleanStep.cleaned? = [] ∧ [lastStep left].filterMap CleanStep.failed? = [] ∧
      [lastStep left].contains .stalled = !left.isEmpty := by
    cases left <;> exact ⟨rfl, rfl, rfl⟩
  have hgoes : (m.restorations handled).contains .stalled = false := by
    rw [List.contains_eq_mem, decide_eq_false_iff_not, restorations_eq, List.mem_map]
    rintro ⟨a, -, ha⟩
    split at ha <;> cases ha
  obtain ⟨hcleaned, hfailed, hstalled⟩ := hlast
  rw [cleanAll_report, foldl_record, h.passSteps_eq, List.filterMap_append, List.filterMap_append, hcleaned, hfailed,
    List.append_nil, List.append_nil, cleaned_restorations, failed_restorations, ← List.countP_eq_length_filter,
    ← List.countP_eq_length_filter, List.contains_append, hgoes, hstalled, Nat.zero_add, Nat.zero_add, Bool.false_or,
    Bool.false_or]

/-- A pass moves the good addresses that it handles to the Complete Queue and leaves the others out, and it stalls where it leaves
any. -/
theorem Pass.device_eq (h : Pass m handled left) (hc : m.device.complete.Holds clean) (report : Report) :
    ∃ ready complete cleanedCount notifications line, (m.cleanAll report).2.device =
        { m.device with
          ready, complete, cleanedCount, line
          isStalled := m.device.isStalled || !left.isEmpty
          stats := { m.device.stats with
            cleaned := m.device.stats.cleaned + handled.countP m.good
            copyFailures := m.device.stats.copyFailures + handled.countP (fun a => !m.good a)
            notifications
            stalls := m.device.stats.stalls + if left.isEmpty || m.device.isStalled then 0 else 1 } } ∧
      ready.Holds left ∧ complete.Holds (clean ++ handled.filter m.good) := by
  have hcomplete := h.holds_restoreAll hc (List.prefix_refl _)
  obtain ⟨ready, hready, hall⟩ := h.cleanAll_eq report
  obtain ⟨complete, cleanedCount, notifications, line, hframe⟩ := m.restoreAll_frame handled
  have hstall := ((m.restoreAll handled).device.withReady ready).stallOver_eq left
  rw [cleaned_restorations, failed_restorations, ← List.countP_eq_length_filter, ← List.countP_eq_length_filter] at hframe
  rw [cleaned_restorations, hframe] at hcomplete
  rw [hframe] at hstall
  rw [hall, mapDevice, hframe]
  exact ⟨ready, complete, cleanedCount, notifications, line, hstall, hready, hcomplete⟩

omit [LawfulMemory μ] in
/-- A pass that sees a stop takes nothing. -/
theorem cleanAll_of_stopping (hs : m.device.isStopping = true) (report : Report) : m.cleanAll report = (report, m) := by
  rw [cleanAll, cleanNext_of_stopping hs]
  rfl

omit [LawfulMemory μ] in
/-- So a whole pass that sees one reports nothing. -/
theorem processReadyQueue_of_stopping (hs : m.device.isStopping = true) :
    m.processReadyQueue = ({}, (m.mapDevice Device.beginPass).mapDevice Device.endPass) := by
  have hnone := cleanAll_of_stopping (m := m.mapDevice Device.beginPass) hs {}
  have hraised : (m.mapDevice Device.beginPass).device.stats.notifications - m.device.stats.notifications = 0 := Nat.sub_self _
  rw [processReadyQueue, hnone]
  dsimp only
  rw [hraised]

/-- A whole pass, by the course of its loop. -/
theorem Pass.processReadyQueue_eq (h : Pass (m.mapDevice Device.beginPass) handled left) (hc : m.device.complete.Holds clean) :
    (∃ notifications, m.processReadyQueue.1 =
        { cleaned := handled.countP m.good
          copyFailures := handled.countP fun a => !m.good a
          stalled := !left.isEmpty
          notifications }) ∧
      ∃ ready complete cleanedCount line stats, m.processReadyQueue.2.device =
          { m.device with
            ready, complete, cleanedCount, line, stats
            doorbell := false
            isProcessing := false
            isStalled := !left.isEmpty } ∧
        stats.passes = m.device.stats.passes + 1 ∧ ready.Holds left ∧ complete.Holds (clean ++ handled.filter m.good) := by
  obtain ⟨ready, complete, _, _, _, hdevice, hready, hcomplete⟩ := h.device_eq hc {}
  have hafter : m.processReadyQueue.2.device = _ := congrArg Device.endPass hdevice
  have hreport : m.processReadyQueue.1 = { ((m.mapDevice Device.beginPass).cleanAll {}).1 with
      notifications := m.processReadyQueue.2.device.stats.notifications - m.device.stats.notifications } := rfl
  rw [h.report_eq] at hreport
  exact ⟨⟨_, hreport⟩, ready, complete, _, _, _, hafter, rfl, hready, hcomplete⟩

/-- What a pass does to any machine that can come about. It makes one step for each virtine that it handles, and one that ends it.
What it handles is the shortest part of the Ready Queue that has as many good addresses as the Complete Queue has room for, or all
of the Ready Queue if that has fewer. The good ones enter the Complete Queue in order, the others are dropped, and what is left stays
in the Ready Queue, in which case the pass has stalled. A pass that sees a stop handles nothing and reports nothing. -/
theorem pass_of_reachable (m : Machine μ) (hm : m.Reachable) :
    let report := m.processReadyQueue.1
    let n := m.processReadyQueue.2
    (m.device.isStopping = false → ∃ handled left,
        m.device.ready.toList = handled ++ left ∧
        IsShortestWith m.good (maxVirtines - m.device.complete.length) m.device.ready.toList handled ∧
        (m.mapDevice Device.beginPass).passSteps.length = handled.length + 1 ∧
        n.device.ready.toList = left ∧
        n.device.complete.toList = m.device.complete.toList ++ handled.filter m.good ∧
        report.cleaned = handled.countP m.good ∧
        report.copyFailures = handled.countP (fun a => !m.good a) ∧
        (report.stalled = true ↔ left ≠ []) ∧ (n.device.isStalled = true ↔ left ≠ []) ∧
        n.device.doorbell = false ∧ n.device.isProcessing = false ∧
        n.device.stats.passes = m.device.stats.passes + 1) ∧
      (m.device.isStopping = true →
        report = {} ∧ n.device.ready = m.device.ready ∧ n.device.complete = m.device.complete ∧ n.memory = m.memory) := by
  intro report n
  obtain ⟨_, hb⟩ := hm.balanced
  constructor
  · intro hs
    obtain ⟨handled, left, hwaiting, hpass⟩ := pass_of_holds (m := m.mapDevice Device.beginPass) hs hb.ready_holds
    obtain ⟨⟨_, hreport⟩, ready, complete, _, _, stats, hdevice, hpasses, hready, hcomplete⟩ :=
      hpass.processReadyQueue_eq hb.complete_holds
    have hreport : report = _ := hreport
    have hdevice : n.device = _ := hdevice
    have hshortest := hpass.isShortestWith hb.complete_holds
    have hsteps : (m.mapDevice Device.beginPass).passSteps.length = handled.length + 1 := by
      rw [hpass.passSteps_eq, List.length_append, length_restorations, List.length_singleton]
    have hstalled : (!left.isEmpty) = true ↔ left ≠ [] := by
      rw [Bool.not_eq_true', Bool.eq_false_iff, ne_eq, List.isEmpty_iff]
    rw [hreport, hdevice]
    refine ⟨handled, left, hwaiting, ?_, hsteps, hready.toList_eq, hcomplete.toList_eq, rfl, rfl, hstalled, hstalled, rfl, rfl,
      hpasses⟩
    rw [hwaiting, hb.complete_holds.length_eq]
    exact hshortest
  · intro hs
    have hnone := processReadyQueue_of_stopping hs
    exact ⟨congrArg Prod.fst hnone, congrArg (·.2.device.ready) hnone, congrArg (·.2.device.complete) hnone,
      congrArg (·.2.memory) hnone⟩

/-- Two virtines of two bytes, and between them an address behind the end of the memory. -/
theorem pass_of_reachable_over_a_bad_address :
    let memory : DenseMemory := ⟨8, ⟨#[1, 2, 0, 0, 0, 0, 0, 0]⟩, rfl⟩
    let submit (b : UInt8) : Action := .write Register.readyTail.address [b, 0, 0, 0, 0, 0, 0, 0]
    let m := (fresh memory 1 (.ofCapacity 1)).run
      [.write Register.snapshotSize.address [2, 0, 0, 0, 0, 0, 0, 0], submit 2, submit 7, submit 6]
    m.Reachable ∧ m.device.isStopping = false ∧ m.device.ready.toList.map (·.word) = [2, 7, 6] ∧
      m.device.ready.toList.map m.good = [true, false, true] ∧ m.processReadyQueue.1.cleaned = 2 ∧
      m.processReadyQueue.1.copyFailures = 1 ∧ m.processReadyQueue.2.device.stats.passes = 1 ∧
      m.processReadyQueue.2.device.complete.toList = m.device.ready.toList.filter m.good := by
  intro memory submit m
  have hm : m.Reachable := (Reachable.fresh _ _ _ (Option.some_ne_none _)).run _
  have hs : m.device.isStopping = false := by decide +kernel
  have hready : m.device.ready.toList = [⟨2, by decide⟩, ⟨7, by decide⟩, ⟨6, by decide⟩] := by decide +kernel
  have hgood : m.device.ready.toList.map m.good = [true, false, true] := by decide +kernel
  have hafter : m.processReadyQueue.2.device.ready.toList = [] := by decide +kernel
  have hpasses : m.device.stats.passes = 0 := by decide +kernel
  have hempty : m.device.complete.toList = [] := by decide +kernel
  obtain ⟨handled, left, hwaiting, -, -, hleft, hcomplete, hcleaned, hfailed, -, -, -, -, hcount⟩ :=
    (pass_of_reachable m hm).1 hs
  clear_value m
  rw [hafter] at hleft
  subst hleft
  rw [List.append_nil] at hwaiting
  subst hwaiting
  have htwo : m.device.ready.toList.countP m.good = (m.device.ready.toList.map m.good).countP id := by
    rw [List.countP_map]
    rfl
  have hone : (m.device.ready.toList.countP fun a => !m.good a) = (m.device.ready.toList.map m.good).countP (!·) := by
    rw [List.countP_map]
    rfl
  rw [htwo, hgood] at hcleaned
  rw [hone, hgood] at hfailed
  rw [hempty, List.nil_append] at hcomplete
  exact ⟨hm, hs, by rw [hready]; rfl, hgood, hcleaned, hfailed, by rw [hcount, hpasses], hcomplete⟩

end Machine

end VirtineCleaning

import VirtineCleaning.Memory.Dense
import VirtineCleaning.Proofs.Device.Halves
import VirtineCleaning.Proofs.Device.Pass

/-!
# It does not matter when passes run

A host submits addresses, and now and then a pass runs. Nothing of a pass leaks into the next but what restoring its virtines
leaves: the memory, the Complete Queue, the counts and the line. So as long as the Complete Queue has room, the state after any
number of passes is that of restoring all that they handled in the order of their submission, but for the parts of the device that
restoring does not look at (`Device.core`). Two hosts that submit the same addresses and let passes run at different moments end up
with the same, once a pass follows the last submission (`agree_of_submissions`).
-/

namespace VirtineCleaning

/-! ## What passes leave to one another -/

namespace Device

/-- The device without what restoring a virtine does not look at: the Ready Queue, the flags of a pass, a submission halfway, and
the counters of submissions and passes. -/
def core (d : Device) : Device :=
  { d with
    ready := .empty
    doorbell := false
    isProcessing := false
    isStalled := false
    stagedReadyTail := none
    stats := { d.stats with submitted := 0, passes := 0 } }

/-- What the core leaves out lies aside of cleaning. -/
theorem aside_core : Aside core :=
  ⟨fun _ => rfl, fun _ => rfl, fun _ => rfl, fun _ => rfl, fun _ => rfl, fun _ _ => rfl, fun _ => rfl, fun _ => rfl⟩

/-- All counters but that of the passes are those of the core and of what was submitted. -/
theorem counters_core (d : Device) :
    { d.counters with passes := 0 } = { d.core.counters with submitted := d.stats.submitted } := by
  have hline : d.core.line.coalesced? = d.line.coalesced? := rfl
  unfold counters
  rw [hline]
  cases d.line.coalesced? <;> rfl

end Device

namespace Machine

variable {μ : Type} [VirtineMemory μ] {m start : Machine μ} {handled left : List Address}

/-- The notification that restoring a virtine raises, if any. -/
def notice? (m : Machine μ) (a : Address) : Option Notification := m.raisedTo? (m.restore a).2

/-- The notifications that restoring virtines raises, one after the other. -/
def notices (m : Machine μ) : List Address → List Notification
  | [] => []
  | a :: rest => (m.notice? a).toList ++ (m.restore a).2.notices rest

theorem notices_append (m : Machine μ) (addresses more : List Address) :
    m.notices (addresses ++ more) = m.notices addresses ++ (m.restoreAll addresses).notices more := by
  induction addresses generalizing m with
  | nil => rfl
  | cons a rest ih => rw [List.cons_append, notices, ih, notices, List.append_assoc, restoreAll]

/-- What lies aside makes no difference to the notices. -/
theorem notices_mapDevice {f : Device → Device} (hf : Device.Aside f) (m : Machine μ) (addresses : List Address) :
    (m.mapDevice f).notices addresses = m.notices addresses := by
  induction addresses generalizing m with
  | nil => rfl
  | cons a rest ih =>
    have hfirst : (m.mapDevice f).notice? a = m.notice? a := by
      unfold notice? raisedTo?
      rw [restore_mapDevice hf]
      simp only [mapDevice, hf.notifications, hf.line, hf.cleanedCount]
    rw [notices, hfirst, restore_mapDevice hf, ih, notices]

/-- A pass raises what restoring the virtines raises that it handles. -/
theorem Pass.raised_eq (h : Pass m handled left) : m.passTrail.filterMap raised? = m.notices handled := by
  -- the step that ends the pass raises nothing
  have hlast : ∀ (n : Machine μ), ¬n.cleanNext.1.continues = true →
      n.cleanNext.2.device.stats.notifications = n.device.stats.notifications → n.passTrail.filterMap raised? = [] := by
    intro n hhalts hsame
    have hnone : n.raised? = none := if_pos hsame
    rw [passTrail, if_neg hhalts, List.filterMap_cons, hnone, List.filterMap_nil]
  induction h with
  | drained hr hnext => exact hlast _ (by rw [hnext]; exact Bool.false_ne_true) (by rw [hnext])
  | @stalled m a rest hr hf hnext =>
    refine hlast _ (by rw [hnext]; exact Bool.false_ne_true) ?_
    rw [hnext]
    simp only [mapDevice, Device.stall]
    split <;> rfl
  | @restored m a handled left ready hf hnext hrest ih =>
    have hfirst : m.raised? = m.notice? a := by
      rw [raised?, hnext]
      rfl
    have hmachine : m.cleanNext.2 = (m.restore a).2.mapDevice (·.withReady ready) := congrArg Prod.snd hnext
    rw [notices_mapDevice (Device.aside_withReady ready)] at ih
    rw [passTrail, if_pos (continues_of_restored hnext), ← List.singleton_append, List.filterMap_append, hmachine, ih, notices, ← hfirst]
    exact congrArg (· ++ _) (filterMap_concat [] m)

end Machine

/-! ## Moves -/

/-- A move of a host: it submits an address, in one access or in the two halves, or has a pass run. -/
inductive Move where
  | submit (a : Address)
  | submitHalves (a : Address)
  | pass
deriving DecidableEq

namespace Move

/-- The address that a move submits. -/
def submitted? : Move → Option Address
  | .submit a | .submitHalves a => some a
  | .pass => none

/-- What a move does to the machine. -/
def actions : Move → List Action
  | .submit a => [.write Register.readyTail.address a.word.bytes]
  | .submitHalves a =>
    [.write Register.readyTail.address a.word.low.bytes, .write (Register.readyTail.address + 4) a.word.high.bytes]
  | .pass => [.processReadyQueue]

end Move

namespace Machine

variable {μ : Type} [VirtineMemory μ] {start m : Machine μ} {done waiting : List Address} {raised : List Notification}

/-- From `start`, where both queues were empty, virtines were submitted, of which passes have handled the first and the others
wait. -/
structure Underway (start m : Machine μ) (done waiting : List Address) (raised : List Notification) : Prop where
  core : m.mapDevice Device.core = (start.restoreAll done).mapDevice Device.core
  ready : m.device.ready.Holds waiting
  complete : ∃ clean, m.device.complete.Holds clean ∧ clean.length ≤ done.length
  isStopping : m.device.isStopping = false
  submitted : m.device.stats.submitted = start.device.stats.submitted + done.length + waiting.length
  raised_eq : raised = start.notices done

namespace Underway

/-- An address that is submitted to a Ready Queue with room enters it, be it in one access or in two. -/
theorem run_submit {next : Move} {a : Address} (hsubmits : next.submitted? = some a) (hr : m.device.ready.Holds waiting)
    (hroom : waiting.length < maxVirtines) :
    m.trail next.actions = [] ∧ ∃ ready staged, ready.Holds (waiting ++ [a]) ∧ m.run next.actions =
      ⟨{ m.device with
        ready
        stagedReadyTail := staged
        stats := { m.device.stats with submitted := m.device.stats.submitted + 1 } }, m.memory⟩ := by
  obtain ⟨ready, hholds, -, henqueue⟩ := Device.enqueue_of_room hr hroom a
  have hwhole := (m.device.write_full a.word .readyTail).trans henqueue
  cases next with
  | submit b =>
    cases hsubmits
    exact ⟨rfl, ready, m.device.stagedReadyTail, hholds, congrArg (Machine.mk · m.memory) hwhole⟩
  | submitHalves b =>
    cases hsubmits
    have hhalves := m.device.write_low_high a.word .readyTail
    rw [hwhole] at hhalves
    exact ⟨rfl, ready, none, hholds, congrArg (Machine.mk · m.memory) hhalves⟩
  | pass => cases hsubmits

/-- A submission waits behind the others. -/
theorem submit (h : Underway start m done waiting raised) {next : Move} {a : Address} (hsubmits : next.submitted? = some a)
    (hroom : waiting.length < maxVirtines) :
    Underway start (m.run next.actions) done (waiting ++ [a]) (raised ++ (m.trail next.actions).filterMap raised?) := by
  obtain ⟨htrail, ready, staged, hholds, hrun⟩ := run_submit hsubmits h.ready hroom
  rw [htrail, hrun, List.filterMap_nil, List.append_nil]
  exact { h with
    core := h.core
    ready := hholds
    submitted := by
      change m.device.stats.submitted + 1 = _
      rw [h.submitted, List.length_append, List.length_singleton, Nat.add_assoc] }

/-- A pass handles all that waits, for which there is room in the Complete Queue. -/
theorem pass (h : Underway start m done waiting raised) (hroom : done.length + waiting.length ≤ maxVirtines) :
    Underway start (m.run Move.pass.actions) (done ++ waiting) []
      (raised ++ (m.trail Move.pass.actions).filterMap raised?) := by
  obtain ⟨clean, hclean, hlength⟩ := h.complete
  obtain ⟨opened, hopened⟩ : ∃ n, n = m.mapDevice Device.beginPass := ⟨_, rfl⟩
  have hcore : opened.mapDevice Device.core = (start.restoreAll done).mapDevice Device.core := hopened ▸ h.core
  have hstats : opened.device.stats.submitted = m.device.stats.submitted := hopened ▸ rfl
  obtain ⟨handled, left, rfl, hpass⟩ : ∃ handled left, waiting = handled ++ left ∧ Pass opened handled left :=
    hopened ▸ pass_of_holds (m := m.mapDevice Device.beginPass) h.isStopping h.ready
  have hclean : opened.device.complete.Holds clean := hopened ▸ hclean
  obtain rfl : left = [] := hpass.left_eq_nil hclean (by omega)
  rw [List.append_nil] at hroom ⊢
  obtain ⟨ready, hready, hall⟩ := hpass.cleanAll_eq {}
  have hcomplete := hpass.holds_restoreAll hclean (List.prefix_refl _)
  obtain ⟨_, _, _, _, hframe⟩ := opened.restoreAll_frame handled
  have hrun : m.run Move.pass.actions =
      ((opened.restoreAll handled).mapDevice fun d => (d.withReady ready).stallOver []).mapDevice Device.endPass := by
    rw [← hall, hopened]
    rfl
  have htrail : m.trail Move.pass.actions = opened.passTrail := by
    rw [hopened, ← List.append_nil (passTrail _)]
    rfl
  rw [hrun, htrail]
  refine ⟨?_, hready, ⟨_, hcomplete, ?_⟩, ?_, ?_, ?_⟩
  · change (opened.restoreAll handled).mapDevice Device.core = _
    rw [← restoreAll_mapDevice Device.aside_core, hcore, restoreAll_mapDevice Device.aside_core, restoreAll_append]
  · have hle := (opened.restorations handled).length_filterMap_le CleanStep.cleaned?
    rw [length_restorations] at hle
    rw [List.length_append, List.length_append]
    omega
  · change (opened.restoreAll handled).device.isStopping = false
    rw [hframe]
    exact hopened ▸ h.isStopping
  · change (opened.restoreAll handled).device.stats.submitted = _
    rw [hframe]
    have hsubmitted := h.submitted
    rw [List.append_nil] at hsubmitted
    rw [List.length_append, List.length_nil]
    dsimp only
    omega
  · have hnotices : opened.notices handled = (start.restoreAll done).notices handled := by
      rw [← notices_mapDevice Device.aside_core, hcore, notices_mapDevice Device.aside_core]
    rw [hpass.raised_eq, hnotices, h.raised_eq, notices_append]

/-- So every move keeps it, as long as there is room for all that is submitted. -/
theorem move (h : Underway start m done waiting raised) (next : Move)
    (hroom : (done ++ waiting ++ next.submitted?.toList).length ≤ maxVirtines) :
    ∃ done' waiting', done' ++ waiting' = done ++ waiting ++ next.submitted?.toList ∧
      Underway start (m.run next.actions) done' waiting' (raised ++ (m.trail next.actions).filterMap raised?) := by
  cases hsubmits : next.submitted? with
  | some a =>
    rw [hsubmits, Option.toList_some, List.length_append, List.length_append, List.length_singleton] at hroom
    exact ⟨done, waiting ++ [a], (List.append_assoc _ _ _).symm, h.submit hsubmits (by omega)⟩
  | none =>
    obtain rfl : next = .pass := by
      cases next with
      | pass => rfl
      | submit => cases hsubmits
      | submitHalves => cases hsubmits
    rw [hsubmits, Option.toList_none, List.append_nil, List.length_append] at hroom
    exact ⟨done ++ waiting, [], rfl, h.pass hroom⟩

/-- So it goes on through all moves that the queue has room for. -/
theorem run (h : Underway start m done waiting raised) (moves : List Move)
    (hroom : (done ++ waiting ++ moves.filterMap Move.submitted?).length ≤ maxVirtines) :
    ∃ done' waiting', done' ++ waiting' = done ++ waiting ++ moves.filterMap Move.submitted? ∧
      Underway start (m.run (moves.flatMap Move.actions)) done' waiting'
        (raised ++ (m.trail (moves.flatMap Move.actions)).filterMap raised?) := by
  induction moves generalizing m done waiting raised with
  | nil =>
    refine ⟨done, waiting, (List.append_nil _).symm, ?_⟩
    change Underway start m done waiting (raised ++ [])
    rw [List.append_nil]
    exact h
  | cons next rest ih =>
    have hrun : m.run ((next :: rest).flatMap Move.actions) = (m.run next.actions).run (rest.flatMap Move.actions) :=
      List.foldl_append
    have hsubmitted : (next :: rest).filterMap Move.submitted? = next.submitted?.toList ++ rest.filterMap Move.submitted? := by
      rw [List.filterMap_cons]
      cases next.submitted? <;> rfl
    rw [hsubmitted, ← List.append_assoc, List.length_append] at hroom
    obtain ⟨done', waiting', heq, hnext⟩ := h.move next (by omega)
    rw [← heq, ← List.length_append] at hroom
    rw [hrun, List.flatMap_cons, trail_append, List.filterMap_append, ← List.append_assoc, hsubmitted, ← List.append_assoc,
      ← heq]
    exact ih hnext hroom

/-- Where a pass follows the last submission, all that was submitted is handled. -/
theorem of_moves (hs : start.device.isStopping = false) (hready : start.device.ready.Holds [])
    (hcomplete : start.device.complete.Holds []) {moves : List Move}
    (hroom : (moves.filterMap Move.submitted?).length ≤ maxVirtines) (hend : ∀ last ∈ moves.getLast?, last = .pass) :
    Underway start (start.run (moves.flatMap Move.actions)) (moves.filterMap Move.submitted?) []
      ((start.trail (moves.flatMap Move.actions)).filterMap raised?) := by
  have hbegin : Underway start start [] [] [] := ⟨rfl, hready, ⟨[], hcomplete, Nat.le_refl 0⟩, hs, rfl, rfl⟩
  rcases List.eq_nil_or_concat moves with rfl | ⟨before, next, rfl⟩
  · exact hbegin
  · rw [List.concat_eq_append] at hroom hend ⊢
    obtain rfl : next = .pass := hend next List.getLast?_concat
    have hsubmitted : (before ++ [Move.pass]).filterMap Move.submitted? = before.filterMap Move.submitted? := by
      rw [List.filterMap_append]
      exact List.append_nil _
    rw [hsubmitted] at hroom ⊢
    obtain ⟨done, waiting, heq, hlast⟩ := hbegin.run before hroom
    have hall := hlast.pass (by rw [← List.length_append, heq]; exact hroom)
    have hactions : (before ++ [Move.pass]).flatMap Move.actions = before.flatMap Move.actions ++ Move.pass.actions := by
      rw [List.flatMap_append]
      rfl
    have hrun : start.run (before.flatMap Move.actions ++ Move.pass.actions) =
        (start.run (before.flatMap Move.actions)).run Move.pass.actions := List.foldl_append
    rw [hactions, hrun, trail_append, List.filterMap_append]
    rw [heq] at hall
    exact hall

end Underway

/-! ## Agreement -/

/-- Two machines agree in all that passes bring about: the Complete Queue, the memory, the count of the batch to be completed, the
line with what is pending on it, and all counters but that of the passes. -/
structure Agree (m n : Machine μ) : Prop where
  complete : m.device.complete = n.device.complete
  memory : m.memory = n.memory
  cleanedCount : m.device.cleanedCount = n.device.cleanedCount
  line : m.device.line = n.device.line
  counters : { m.device.counters with passes := 0 } = { n.device.counters with passes := 0 }

omit [VirtineMemory μ] in
/-- They do if their cores agree, and what was submitted. -/
theorem agree_of_core {n : Machine μ} (hcore : m.mapDevice Device.core = n.mapDevice Device.core)
    (hsubmitted : m.device.stats.submitted = n.device.stats.submitted) : Agree m n := by
  have hdevice : m.device.core = n.device.core := congrArg Machine.device hcore
  have hmemory : (m.mapDevice Device.core).memory = (n.mapDevice Device.core).memory := congrArg Machine.memory hcore
  have hcomplete : m.device.core.complete = n.device.core.complete := congrArg Device.complete hdevice
  have hcount : m.device.core.cleanedCount = n.device.core.cleanedCount := congrArg Device.cleanedCount hdevice
  have hline : m.device.core.line = n.device.core.line := congrArg Device.line hdevice
  refine ⟨hcomplete, hmemory, hcount, hline, ?_⟩
  rw [m.device.counters_core, n.device.counters_core, hdevice, hsubmitted]

/-- It does not matter when passes run. From any machine that can come about, with both queues empty and no stop requested, two
hosts submit the same addresses, no more than a queue has slots, and each lets passes run in between as it likes, as long as one
follows the last submission: they end up with the same, and the same notifications are raised in the same order. -/
theorem agree_of_submissions (m : Machine μ) (hm : m.Reachable) (hs : m.device.isStopping = false)
    (hready : m.device.ready.length = 0) (hcomplete : m.device.complete.length = 0) (moves others : List Move)
    (hsame : moves.filterMap Move.submitted? = others.filterMap Move.submitted?)
    (hroom : (moves.filterMap Move.submitted?).length ≤ maxVirtines)
    (hend : ∀ last ∈ moves.getLast?, last = .pass) (hend' : ∀ last ∈ others.getLast?, last = .pass) :
    Agree (m.run (moves.flatMap Move.actions)) (m.run (others.flatMap Move.actions)) ∧
      (m.trail (moves.flatMap Move.actions)).filterMap raised? =
        (m.trail (others.flatMap Move.actions)).filterMap raised? := by
  obtain ⟨_, hb⟩ := hm.balanced
  have hready := hb.ready_holds.nil_of_length hready
  have hcomplete := hb.complete_holds.nil_of_length hcomplete
  have hone := Underway.of_moves hs hready hcomplete hroom hend
  rw [hsame] at hone hroom
  have htwo := Underway.of_moves hs hready hcomplete hroom hend'
  exact ⟨agree_of_core (hone.core.trans htwo.core.symm) (hone.submitted.trans htwo.submitted.symm),
    hone.raised_eq.trans htwo.raised_eq.symm⟩

/-- Three virtines in batches of two, the first of which overlaps the snapshot: a pass falls amid the first batch, or behind it. -/
theorem agree_of_submissions_amid_a_batch :
    let memory : DenseMemory := ⟨8, ⟨#[1, 2, 0, 0, 0, 0, 0, 0]⟩, rfl⟩
    let m := (fresh memory 2 (.ofCapacity 1)).run [.write Register.snapshotSize.address [2, 0, 0, 0, 0, 0, 0, 0]]
    let moves : List Move := [.submit ⟨1, by decide⟩, .pass, .submitHalves ⟨3, by decide⟩, .submit ⟨5, by decide⟩, .pass]
    let others : List Move :=
      [.submit ⟨1, by decide⟩, .submit ⟨3, by decide⟩, .pass, .pass, .submit ⟨5, by decide⟩, .pass, .pass]
    m.Reachable ∧ moves.filterMap Move.submitted? = others.filterMap Move.submitted? ∧
      Agree (m.run (moves.flatMap Move.actions)) (m.run (others.flatMap Move.actions)) ∧
      (m.run (moves.flatMap Move.actions)).memory.data.data.toList = [1, 1, 2, 1, 1, 1, 1, 0] ∧
      (m.trail (moves.flatMap Move.actions)).filterMap raised? = [⟨1, 2⟩] ∧
      (m.trail (others.flatMap Move.actions)).filterMap raised? = [⟨1, 2⟩] := by
  intro memory m moves others
  have hm : m.Reachable := (Reachable.fresh _ _ _ (Option.some_ne_none _)).run _
  have hsame : moves.filterMap Move.submitted? = others.filterMap Move.submitted? := by decide
  have hmemory : (m.run (moves.flatMap Move.actions)).memory.data.data.toList = [1, 1, 2, 1, 1, 1, 1, 0] := by decide +kernel
  have hraised : (m.trail (moves.flatMap Move.actions)).filterMap raised? = [⟨1, 2⟩] := by decide +kernel
  obtain ⟨hagree, hnotices⟩ := agree_of_submissions m hm (by decide +kernel) (by decide +kernel) (by decide +kernel) moves others
    hsame (by decide) (by decide) (by decide)
  exact ⟨hm, hsame, hagree, hmemory, hraised, hnotices ▸ hraised⟩

end Machine

end VirtineCleaning

import VirtineCleaning.Memory.Dense
import VirtineCleaning.Proofs.Device.Coherence
import VirtineCleaning.Proofs.Device.Pass

/-!
# The batches of one pass

A pass tests after each virtine that it cleans whether a batch is complete, and carries what is left of it into the next pass. While
the batch factor stays what it is, this is a division with a remainder: of the virtines carried and those cleaned, each full number
of them makes one notification (`batches_of_lt`). Only where the factor was lowered below what is carried does the first virtine
complete a batch that is larger than the factor asks for (`batches_of_le`). Whether a notification finds room on the line plays no
part in it (`batches_of_pass`).
-/

namespace VirtineCleaning

/-! ## Batches -/

/-- The batches that `k` more virtines complete, cleaned one after the other, each as large as it has become, and what is carried
over from them: a batch is complete from `b` virtines on, and `c` are carried already. -/
def batches (b c : Nat) : Nat → List Nat × Nat
  | 0 => ([], c)
  | k + 1 =>
    if b ≤ c + 1 then
      let next := batches b 0 k
      ((c + 1) :: next.1, next.2)
    else batches b (c + 1) k

/-- What is carried over goes into the batches that follow. -/
theorem batches_add (b c j k : Nat) :
    batches b c (j + k) =
      ((batches b c j).1 ++ (batches b (batches b c j).2 k).1, (batches b (batches b c j).2 k).2) := by
  induction j generalizing c with
  | zero => rw [Nat.zero_add, batches, List.nil_append]
  | succ j ih =>
    rw [Nat.succ_add, batches, batches]
    split
    · rw [ih]
      rfl
    · exact ih (c + 1)

/-- Less than a batch carried, the batches are as many as there are full ones, and the remainder is carried. -/
theorem batches_of_lt {b c : Nat} (h : c < b) (k : Nat) :
    batches b c k = (List.replicate ((c + k) / b) b, (c + k) % b) := by
  induction k generalizing c with
  | zero => rw [batches, Nat.add_zero, Nat.div_eq_of_lt h, Nat.mod_eq_of_lt h, List.replicate_zero]
  | succ k ih =>
    rw [batches]
    split
    · rename_i hle
      -- one short of a batch, the virtine completes it exactly
      obtain rfl : b = c + 1 := by omega
      have hfull : c + (k + 1) = k + (c + 1) := by omega
      rw [ih c.succ_pos, hfull, Nat.add_div_right k c.succ_pos, Nat.add_mod_right, List.replicate_succ, Nat.zero_add]
    · rename_i hlt
      rw [ih (by omega), Nat.add_right_comm, Nat.add_assoc]

/-- A batch or more carried, the first virtine completes one that is larger, and nothing is carried behind it. -/
theorem batches_of_le {b c : Nat} (hb : 0 < b) (h : b ≤ c) (k : Nat) :
    batches b c (k + 1) = ((c + 1) :: List.replicate (k / b) b, k % b) := by
  rw [batches, if_pos (by omega), batches_of_lt hb, Nat.zero_add]

/-! ## Devices that have a notifier -/

/-- A use of the receiver leaves the notifier. -/
theorem Line.notifier_use (l : Line) (u : ReceiverUse) : (l.use u).2.notifier = l.notifier := by
  have hcase := l.use_case u
  generalize l.use u = next at hcase
  cases hcase <;> rfl

/-- A device that is ending, or has no notifier, was asked to stop. -/
def Device.EndsOnStop (d : Device) : Prop := d.phase = .stopping ∨ d.line.notifier = none → d.isStopping = true

/-- It stays so where nothing changes that notifications depend on. -/
theorem Device.EndsOnStop.of_unnoticed {d e : Device} (h : d.EndsOnStop) (hu : d.Unnoticed e) : e.EndsOnStop := by
  intro hends
  rw [hu.phase, hu.line] at hends
  exact hu.isStopping.trans (h hends)

namespace Machine

variable {μ : Type} [VirtineMemory μ] {m n o : Machine μ}

/-- The operations of a device end it only after a stop was requested. -/
theorem keeps_endsOnStop : Keeps fun (m : Machine μ) _ => m.device.EndsOnStop where
  read offset length h := h.of_unnoticed (Device.unnoticed_read _ offset length)
  write offset bytes h := h.of_unnoticed (Device.unnoticed_write _ offset bytes)
  signal h := h.of_unnoticed (Device.unnoticed_ringDoorbell _)
  requestStop _ _ := rfl
  beginPass h := h
  cleanNext {m _} h hends := by
    obtain ⟨-, hphase, hstop⟩ := m.frame_cleanNext
    rw [hphase, m.notifier_cleanNext] at hends
    exact hstop.trans (h hends)
  endPass h := h
  movePhase _ _ hstop h := by
    rintro (hphase | hnotifier)
    · exact hstop hphase
    · exact h (Or.inr hnotifier)
  close hp h _ := h (Or.inl hp)

/-- So until then it has one. -/
theorem Reachable.notifier_ne_none (hm : m.Reachable) (hs : m.device.isStopping = false) : m.device.line.notifier ≠ none := by
  have hends : m.device.EndsOnStop := by
    refine hm.of_keeps keeps_endsOnStop ?_ ?_
    · rintro batchFactor line hline (hphase | hnotifier)
      · cases hphase
      · exact absurd hnotifier hline
    · intro d u h hends
      rw [Line.notifier_use] at hends
      exact h hends
  intro hnone
  exact absurd (hs.symm.trans (hends (Or.inr hnone))) Bool.false_ne_true

/-! ## Steps and passes -/

/-- From one machine to another, `k` virtines were cleaned, and the batches told of that they complete: on the line, if there is a
notifier, by notifications as large as the batches. -/
structure Counts (m n : Machine μ) (k : Nat) (raised : List Notification) : Prop where
  settings : n.settings = m.settings
  notifier : n.device.line.notifier = none ↔ m.device.line.notifier = none
  line : n.device.line = m.device.line.raiseAll (raised.map (·.cleaned))
  cleanedCount : n.device.cleanedCount = (batches m.device.batchSize m.device.cleanedCount k).2
  notifications : n.device.stats.notifications =
    m.device.stats.notifications + (batches m.device.batchSize m.device.cleanedCount k).1.length
  raised : m.device.line.notifier ≠ none →
    raised.map (·.cleaned) = (batches m.device.batchSize m.device.cleanedCount k).1

omit [VirtineMemory μ] in
theorem Counts.trans {j k : Nat} {raised more : List Notification} (h : Counts m n j raised) (h' : Counts n o k more) :
    Counts m o (j + k) (raised ++ more) := by
  have hsize : n.device.batchSize = m.device.batchSize := by
    have hfactor := congrArg Prod.fst h.settings
    unfold Device.batchSize
    exact congrArg (max 1 ·.toNat) hfactor
  have hcount := h'.cleanedCount
  have hnotifications := h'.notifications
  have hraised := h'.raised
  rw [hsize, h.cleanedCount] at hcount hnotifications hraised
  refine ⟨h'.settings.trans h.settings, h'.notifier.trans h.notifier, ?_, ?_, ?_, ?_⟩
  · rw [List.map_append, Line.raiseAll_append, ← h.line]
    exact h'.line
  · rw [batches_add]
    exact hcount
  · rw [batches_add, hnotifications, h.notifications, List.length_append, Nat.add_assoc]
  · intro hn
    rw [batches_add, List.map_append, h.raised hn, hraised (mt h.notifier.1 hn)]

/-- A step of cleaning counts the virtine that it cleans, if it cleans one. -/
theorem counts_cleanNext (m : Machine μ) :
    Counts m m.cleanNext.2 ([m.cleanNext.1].filterMap CleanStep.cleaned?).length ([m].filterMap raised?) := by
  have hnotifier := m.notifier_cleanNext
  have hsettings := m.settings_cleanNext
  have hline := m.line_cleanNext
  have hraised : [m].filterMap raised? = m.raised?.toList := filterMap_concat [] m
  have hcase := m.notice_case
  rw [hraised]
  generalize m.cleanNext.2 = next, m.raised? = notice at hcase hnotifier hsettings hline
  cases hcase with
  | idle hd hc =>
    obtain ⟨_, _, _, _, _, hd⟩ := hd
    have hnone : [m.cleanNext.1].filterMap CleanStep.cleaned? = [] := by
      cases hstep : m.cleanNext.1 with
      | cleaned a => exact absurd hstep (hc a)
      | _ => rfl
    rw [hnone]
    refine ⟨hsettings, hnotifier, hline, ?_, ?_, fun _ => rfl⟩
    · rw [hd]
      rfl
    · rw [hd]
      rfl
  | waits hc _ hlt =>
    rw [hc]
    have hnone : batches m.device.batchSize m.device.cleanedCount 1 = ([], m.device.cleanedCount + 1) := if_neg (by omega)
    refine ⟨hsettings, hnotifier, hline, ?_, ?_, fun _ => ?_⟩
    · exact (congrArg Prod.snd hnone).symm
    · exact (congrArg (m.device.stats.notifications + ·.1.length) hnone).symm
    · exact (congrArg Prod.fst hnone).symm
  | raises hc _ hle =>
    rw [hc]
    have hone : batches m.device.batchSize m.device.cleanedCount 1 = ([m.device.cleanedCount + 1], 0) := if_pos hle
    refine ⟨hsettings, hnotifier, hline, ?_, ?_, fun hn => ?_⟩
    · exact (congrArg Prod.snd hone).symm
    · exact (congrArg (m.device.stats.notifications + ·.1.length) hone).symm
    · obtain ⟨notifier, hsome⟩ := Option.ne_none_iff_exists'.1 hn
      rw [hsome]
      exact (congrArg Prod.fst hone).symm

/-- So does the loop of a pass with all that it cleans. -/
theorem counts_cleanAll (m : Machine μ) (report : Report) :
    Counts m (m.cleanAll report).2 (m.passSteps.filterMap CleanStep.cleaned?).length (m.passTrail.filterMap raised?) := by
  fun_induction cleanAll m report with
  | case1 m report next hgo ih =>
    have hsteps : m.passSteps = [m.cleanNext.1] ++ next.2.passSteps := by
      rw [passSteps, if_pos hgo]
      rfl
    have htrail : m.passTrail = [m] ++ next.2.passTrail := by
      rw [passTrail, if_pos hgo]
      rfl
    rw [hsteps, htrail, List.filterMap_append, List.filterMap_append, List.length_append]
    exact m.counts_cleanNext.trans ih
  | case2 m report next hhalt =>
    rw [passSteps, if_neg hhalt, passTrail, if_neg hhalt]
    exact m.counts_cleanNext

/-- The notifications of a pass, whatever befell the machine before. They are none, and the count stays, where nothing is cleaned.
With less than a batch carried over, each full batch is told of and the remainder carried on. Where the factor was lowered to what is
carried or less, the first virtine completes a batch with all that was carried, and those behind it are as large as the factor asks
for. The report has as many, be there room on the line, or a receiver, or none. What each of them carries is a matter of the notifier,
which a device has until a stop is requested: the pass leaves the line as raising them leaves it, one after the other. -/
theorem batches_of_pass (m : Machine μ) :
    let b := max 1 m.device.batchFactor.toNat
    let c := m.device.cleanedCount
    let report := m.processReadyQueue.1
    let n := m.processReadyQueue.2
    let k := report.cleaned
    let sizes := ((m.stepsFrom .processReadyQueue).filterMap raised?).map (·.cleaned)
    (k = 0 → report.notifications = 0 ∧ n.device.cleanedCount = c ∧ (m.device.line.notifier ≠ none → sizes = [])) ∧
      (c < b → report.notifications = (c + k) / b ∧ n.device.cleanedCount = (c + k) % b ∧
        (m.device.line.notifier ≠ none → sizes = List.replicate ((c + k) / b) b)) ∧
      (b ≤ c → 1 ≤ k → report.notifications = 1 + (k - 1) / b ∧ n.device.cleanedCount = (k - 1) % b ∧
        (m.device.line.notifier ≠ none → sizes = (c + 1) :: List.replicate ((k - 1) / b) b)) ∧
      n.device.line = m.device.line.raiseAll sizes ∧
      (m.Reachable → m.device.isStopping = false → m.device.line.notifier ≠ none) := by
  intro b c report n k sizes
  have hcounts := (m.mapDevice Device.beginPass).counts_cleanAll {}
  have hk : ((m.mapDevice Device.beginPass).passSteps.filterMap CleanStep.cleaned?).length = k := by
    have hreport := (m.mapDevice Device.beginPass).cleanAll_report {}
    rw [foldl_record, Nat.zero_add] at hreport
    exact (congrArg Report.cleaned hreport).symm
  rw [hk] at hcounts
  have hnotified : n.device.stats.notifications = m.device.stats.notifications + (batches b c k).1.length :=
    hcounts.notifications
  have hcarried : n.device.cleanedCount = (batches b c k).2 := hcounts.cleanedCount
  have hsizes : m.device.line.notifier ≠ none → sizes = (batches b c k).1 := hcounts.raised
  have hline : n.device.line = m.device.line.raiseAll sizes := hcounts.line
  have hnotifications : report.notifications = (batches b c k).1.length := by
    have hreport : report.notifications = n.device.stats.notifications - m.device.stats.notifications := rfl
    rw [hreport, hnotified, Nat.add_sub_cancel_left]
  rw [hnotifications, hcarried]
  clear_value k sizes
  refine ⟨?_, ?_, ?_, hline, fun hm hs => hm.notifier_ne_none hs⟩
  · rintro rfl
    exact ⟨rfl, rfl, hsizes⟩
  · intro hlt
    rw [batches_of_lt hlt] at hsizes ⊢
    exact ⟨List.length_replicate, rfl, hsizes⟩
  · intro hle hpos
    obtain ⟨k, rfl⟩ : ∃ j, k = j + 1 := ⟨k - 1, by omega⟩
    have hb : 0 < b := Nat.lt_of_lt_of_le Nat.one_pos (Nat.le_max_left _ _)
    rw [batches_of_le hb hle] at hsizes ⊢
    rw [Nat.add_sub_cancel]
    refine ⟨?_, rfl, hsizes⟩
    rw [List.length_cons, List.length_replicate, Nat.add_comm]

/-- Three virtines are carried when the factor is lowered from ten to two, and then four more are cleaned. The line has room for one of
the two notifications, and the other is coalesced. -/
theorem batches_of_pass_below_a_lowered_factor :
    let submit (b : UInt8) : Action := .write Register.readyTail.address [b, 0, 0, 0, 0, 0, 0, 0]
    let m := (fresh (DenseMemory.zeros 0) 10 (.ofCapacity 1)).run
      [submit 1, submit 2, submit 3, .processReadyQueue, .write Register.batchFactor.address [2, 0, 0, 0, 0, 0, 0, 0],
        submit 4, submit 5, submit 6, submit 7]
    m.device.cleanedCount = 3 ∧ m.processReadyQueue.1.cleaned = 4 ∧ m.processReadyQueue.1.notifications = 2 ∧
      m.processReadyQueue.2.device.cleanedCount = 1 ∧
      ((m.stepsFrom .processReadyQueue).filterMap raised?).map (·.cleaned) = [4, 2] ∧
      m.processReadyQueue.2.device.line = ⟨1, [⟨1, 4⟩], some ⟨3, 1⟩, true⟩ := by
  intro submit m
  have hfactor : m.device.batchFactor = 2 := by decide +kernel
  have hcarried : m.device.cleanedCount = 3 := by decide +kernel
  have hcleaned : m.processReadyQueue.1.cleaned = 4 := by decide +kernel
  have hm : m.Reachable := (Reachable.fresh _ _ _ (Option.some_ne_none _)).run _
  have hs : m.device.isStopping = false := by decide +kernel
  have hbefore : m.device.line = .ofCapacity 1 := by decide +kernel
  obtain ⟨-, -, hlowered, hline, hnotifier⟩ := batches_of_pass m
  clear_value m
  simp only [hfactor, hcarried, hcleaned] at hlowered
  obtain ⟨hnotifications, hcount, hsizes⟩ := hlowered (by decide) (by decide)
  have hsizes : ((m.stepsFrom .processReadyQueue).filterMap raised?).map (·.cleaned) = [4, 2] := hsizes (hnotifier hm hs)
  rw [hsizes, hbefore] at hline
  exact ⟨hcarried, hcleaned, hnotifications, hcount, hsizes, hline⟩

end Machine

end VirtineCleaning

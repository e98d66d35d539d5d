import VirtineCleaning.Memory.Dense
import VirtineCleaning.Proofs.Device.Coherence
import VirtineCleaning.Proofs.Device.Halves

/-!
# After a stop was requested

A stop may be requested in any phase of the worker, between any two virtines, with the doorbell rung or the device stalled, and the
host goes on with its accesses before and after the worker has ended. From then on nothing is cleaned and nobody is notified: what
waits goes on waiting, what was cleaned can still be reclaimed, in order, and the notifications that were coalesced stay counted
when the notifier goes (`StoppedSince`). The worker is never asleep, and two of its steps end it (`stop_of_run`).
-/

namespace VirtineCleaning

open History

namespace Device

/-- From one device to another nobody was notified and nothing was cleaned towards a notification. -/
structure Quiescent (d e : Device) : Prop where
  isStopping : d.isStopping = true → e.isStopping = true
  notifications : e.stats.notifications = d.stats.notifications
  cleanedCount : e.cleanedCount = d.cleanedCount
  coalesced : e.counters.notificationsCoalesced = d.counters.notificationsCoalesced

namespace Quiescent

variable {d e f : Device}

theorem refl (d : Device) : d.Quiescent d := ⟨id, rfl, rfl, rfl⟩

theorem trans (h : d.Quiescent e) (k : e.Quiescent f) : d.Quiescent f where
  isStopping hs := k.isStopping (h.isStopping hs)
  notifications := k.notifications.trans h.notifications
  cleanedCount := k.cleanedCount.trans h.cleanedCount
  coalesced := k.coalesced.trans h.coalesced

/-- What leaves the line and the counters of notifications alone leaves the count of the coalesced. -/
theorem of_line (hs : d.isStopping = true → e.isStopping = true) (hline : e.line = d.line)
    (hcount : e.cleanedCount = d.cleanedCount) (hnotifications : e.stats.notifications = d.stats.notifications)
    (hcoalesced : e.stats.notificationsCoalesced = d.stats.notificationsCoalesced) : d.Quiescent e where
  isStopping := hs
  notifications := hnotifications
  cleanedCount := hcount
  coalesced := by
    unfold counters
    rw [hline]
    split
    · rfl
    · exact hcoalesced

/-- A reclaim is quiescent: it hands out what was cleaned before. -/
theorem dequeue (d : Device) : d.Quiescent d.dequeue.2 := by
  have hcase := d.dequeue_case
  generalize d.dequeue = next, d.dequeueEvents = events at hcase
  cases hcase with
  | empty => exact .refl d
  | taken => exact .of_line id rfl rfl rfl rfl

/-- So is a submission, which waits from then on. -/
theorem enqueue (d : Device) (w : Word) : d.Quiescent (d.enqueue w) := by
  have hcase := d.enqueue_case w
  generalize d.enqueue w = next, d.submitEvents w = events at hcase
  cases hcase <;> exact .of_line id rfl rfl rfl rfl

theorem ringDoorbell (d : Device) : d.Quiescent d.ringDoorbell := by
  unfold Device.ringDoorbell
  split
  · exact .refl d
  · exact .of_line id rfl rfl rfl rfl

theorem read (d : Device) (offset : Word) (length : Nat) : d.Quiescent (d.read offset length).2 := by
  have hcase := d.read_case offset length
  generalize (d.read offset length).2 = next, d.readEvents offset length = events at hcase
  cases hcase with
  | reclaims => exact (dequeue d).trans (.of_line id rfl rfl rfl rfl)
  | looks => exact .of_line id rfl rfl rfl rfl

theorem write (d : Device) (offset : Word) (bytes : List UInt8) : d.Quiescent (d.write offset bytes).2 := by
  have hcase := d.write_case offset bytes
  generalize d.submission? offset bytes = submission, (d.write offset bytes).2 = next,
    d.writeEvents offset bytes = events at hcase
  cases hcase with
  | submits w staged =>
    exact trans (e := { d with stagedReadyTail := staged }) (.of_line id rfl rfl rfl rfl) (enqueue _ w)
  | rings => exact ringDoorbell d
  | sets => exact .of_line id rfl rfl rfl rfl

/-- The notifier leaves its count of the coalesced behind. -/
theorem closeNotifications (d : Device) : d.Quiescent d.closeNotifications where
  isStopping := id
  notifications := by
    unfold Device.closeNotifications counters
    split <;> rfl
  cleanedCount := rfl
  coalesced := rfl

end Quiescent

/-- The steps that the worker still makes after a stop. -/
def stepsToEnd (d : Device) : Nat :=
  match d.phase with
  | .waitingForDoorbell | .processing => 2
  | .stopping => 1
  | .terminated => 0

/-- The worker is never more than two steps from its end. -/
theorem stepsToEnd_le (d : Device) : d.stepsToEnd ≤ 2 := by
  unfold stepsToEnd
  split <;> omega

/-- It has come to its end where no step is left. -/
theorem terminated_of_stepsToEnd {d : Device} (h : d.stepsToEnd = 0) : d.phase = .terminated := by
  cases hp : d.phase with
  | waitingForDoorbell => simp [stepsToEnd, hp] at h
  | processing => simp [stepsToEnd, hp] at h
  | stopping => simp [stepsToEnd, hp] at h
  | terminated => rfl

/-- A worker that has not ended is not asleep once a stop was requested. -/
theorem hasWork_of_stopping {d : Device} (hs : d.isStopping = true) (hp : d.phase ≠ .terminated) : d.hasWork = true := by
  unfold hasWork
  cases hphase : d.phase with
  | waitingForDoorbell => simp [hs]
  | processing => rfl
  | stopping => rfl
  | terminated => exact absurd hphase hp

end Device

namespace Machine

variable {μ : Type} [VirtineMemory μ] {m : Machine μ} {h : History}

open Device

/-! ## The worker after a stop -/

/-- The worker closes what it has open, then gives up the notifier, then rests. -/
inductive EndingCase (m : Machine μ) : Machine μ → Prop where
  | turn (hp : m.device.phase = .waitingForDoorbell) :
      EndingCase m (m.mapDevice ({ · with phase := .stopping }))
  | endPass (hp : m.device.phase = .processing) :
      EndingCase m (m.mapDevice ({ ·.endPass with phase := .stopping }))
  | close (hp : m.device.phase = .stopping) :
      EndingCase m (m.mapDevice ({ ·.closeNotifications with phase := .terminated }))
  | rest (hp : m.device.phase = .terminated) : EndingCase m m

theorem workerStep_ending (hs : m.device.isStopping = true) : EndingCase m m.workerStep := by
  unfold workerStep
  cases hp : m.device.phase with
  | waitingForDoorbell =>
    simp only [if_pos hs]
    exact .turn hp
  | processing =>
    simp only [cleanNext_of_stopping hs]
    exact .endPass hp
  | stopping => exact .close hp
  | terminated => exact .rest hp

/-- A step of the worker after a stop changes no memory and notifies nobody. -/
theorem quiescent_workerStep (hs : m.device.isStopping = true) :
    m.device.Quiescent m.workerStep.device ∧ m.workerStep.memory = m.memory := by
  have hcase := workerStep_ending hs
  generalize m.workerStep = next at hcase
  cases hcase with
  | turn => exact ⟨.of_line id rfl rfl rfl rfl, rfl⟩
  | endPass => exact ⟨.of_line id rfl rfl rfl rfl, rfl⟩
  | close => exact ⟨(Quiescent.closeNotifications m.device).trans (.of_line id rfl rfl rfl rfl), rfl⟩
  | rest => exact ⟨.refl m.device, rfl⟩

/-- An access takes nothing off the Ready Queue. -/
theorem handled_of_access (m : Machine μ) {a : Action} (ha : a.isAccess = true) : handled (m.events a) = [] := by
  cases a with
  | read offset length =>
    have hcase := m.device.read_case offset length
    simp only [events]
    generalize (m.device.read offset length).2 = next, m.device.readEvents offset length = events at hcase
    cases hcase with
    | reclaims =>
      have hcase := m.device.dequeue_case
      generalize m.device.dequeue = next, m.device.dequeueEvents = events at hcase
      cases hcase <;> rfl
    | looks => rfl
  | write offset bytes =>
    have hcase := m.device.write_case offset bytes
    simp only [events]
    generalize m.device.submission? offset bytes = submission, (m.device.write offset bytes).2 = next,
      m.device.writeEvents offset bytes = events at hcase
    cases hcase with
    | submits w staged =>
      have hcase := m.device.enqueue_case w
      generalize m.device.enqueue w = next, m.device.submitEvents w = events at hcase
      cases hcase <;> rfl
    | rings => rfl
    | sets => rfl
  | signal => rfl
  | _ => cases ha

/-- After a stop, a live action changes no memory, notifies nobody and takes nothing off the Ready Queue. -/
theorem quiescent_apply {a : Action} (hl : a.isLive = true) (hs : m.device.isStopping = true) :
    m.device.Quiescent (m.apply a).device ∧ (m.apply a).memory = m.memory ∧ handled (m.events a) = [] := by
  cases a with
  | read offset length => exact ⟨.read m.device offset length, rfl, m.handled_of_access rfl⟩
  | write offset bytes => exact ⟨.write m.device offset bytes, rfl, m.handled_of_access rfl⟩
  | signal => exact ⟨.ringDoorbell m.device, rfl, m.handled_of_access rfl⟩
  | requestStop => exact ⟨.of_line (fun _ => rfl) rfl rfl rfl rfl, rfl, rfl⟩
  | work =>
    obtain ⟨hquiescent, hmemory⟩ := quiescent_workerStep hs
    refine ⟨hquiescent, hmemory, ?_⟩
    simp only [events, cleanNext_of_stopping hs]
    split <;> rfl
  | _ => cases hl

/-- After a stop nothing more is handled, whatever is done. -/
theorem quiescent_run {actions : List Action} (hlive : ∀ a ∈ actions, a.isLive = true)
    (hs : m.device.isStopping = true) :
    m.device.Quiescent (m.run actions).device ∧ (m.run actions).memory = m.memory ∧ handled (m.history actions) = [] := by
  refine run_of_steps (h := []) (P := fun n since =>
    m.device.Quiescent n.device ∧ n.memory = m.memory ∧ handled since = []) ?_ ⟨.refl m.device, rfl, rfl⟩
  rintro a hmem n since ⟨hquiescent, hmemory, hhandled⟩
  obtain ⟨hstep, hsame, hnone⟩ := quiescent_apply (hlive a hmem) (hquiescent.isStopping hs)
  exact ⟨hquiescent.trans hstep, hsame.trans hmemory, by rw [handled_append, hhandled, hnone, List.append_nil]⟩

/-- A run of live actions in which a stop is requested leaves it requested. -/
theorem isStopping_of_mem {actions : List Action} (hlive : ∀ a ∈ actions, a.isLive = true)
    (hstop : .requestStop ∈ actions) : (m.run actions).device.isStopping = true := by
  obtain ⟨before, after, rfl⟩ := List.append_of_mem hstop
  have hafter : ∀ a ∈ after, a.isLive = true := fun a ha => hlive a (by simp [ha])
  rw [run, List.foldl_append]
  exact (quiescent_run (m := (m.run before).apply .requestStop) hafter rfl).1.isStopping rfl

/-! ## The way to the end -/

/-- Each step of the worker brings it one step closer to its end. -/
theorem stepsToEnd_workerStep (hs : m.device.isStopping = true) :
    m.workerStep.device.stepsToEnd = m.device.stepsToEnd - 1 := by
  have hcase := workerStep_ending hs
  generalize m.workerStep = next at hcase
  cases hcase with
  | turn hp => simp [Device.stepsToEnd, mapDevice, hp]
  | endPass hp => simp [Device.stepsToEnd, mapDevice, hp]
  | close hp => simp [Device.stepsToEnd, mapDevice, hp]
  | rest hp => simp [Device.stepsToEnd, hp]

/-- Only steps of the worker bring the end nearer. -/
theorem stepsToEnd_apply {a : Action} (hl : a.isLive = true) (hs : m.device.isStopping = true) :
    (m.apply a).device.stepsToEnd = m.device.stepsToEnd - [a].count .work := by
  have hphase : ∀ d : Device, d.phase = m.device.phase → d.stepsToEnd = m.device.stepsToEnd := by
    intro d hp
    rw [Device.stepsToEnd, Device.stepsToEnd, hp]
  cases a with
  | read offset length => exact hphase _ (m.device.read_frame offset length).2.1
  | write offset bytes => exact hphase _ (m.device.write_frame offset bytes).2.2.1
  | signal => exact hphase _ m.device.ringDoorbell_frame.2.2.1
  | requestStop => rfl
  | work => exact stepsToEnd_workerStep hs
  | _ => cases hl

theorem stepsToEnd_run {actions : List Action} (hlive : ∀ a ∈ actions, a.isLive = true)
    (hs : m.device.isStopping = true) :
    (m.run actions).device.stepsToEnd = m.device.stepsToEnd - actions.count .work := by
  induction actions generalizing m with
  | nil => rfl
  | cons a rest ih =>
    have hl := hlive a List.mem_cons_self
    have hstep := stepsToEnd_apply hl hs
    have hrest := ih (m := m.apply a) (fun b hb => hlive b (List.mem_cons_of_mem a hb))
      ((quiescent_apply hl hs).1.isStopping hs)
    have hcount : (a :: rest).count .work = [a].count .work + rest.count .work := by
      rw [← List.singleton_append, List.count_append]
    change ((m.apply a).run rest).device.stepsToEnd = _
    omega

/-! ## What a stop leaves -/

/-- What holds between a machine `m` at which a stop has been requested and a later one, `n`, with the history in between. -/
structure StoppedSince (m n : Machine μ) (since : History) : Prop where
  /-- No byte changes. -/
  memory : n.memory = m.memory
  /-- Nothing leaves the Ready Queue. -/
  ready : n.device.ready.toList = m.device.ready.toList ++ accepted since
  /-- Nothing enters the Complete Queue, and what was there is reclaimed in order. -/
  complete : m.device.complete.toList = reclaimed since ++ n.device.complete.toList
  cleaned : n.device.stats.cleaned = m.device.stats.cleaned
  copyFailures : n.device.stats.copyFailures = m.device.stats.copyFailures
  notifications : n.device.stats.notifications = m.device.stats.notifications
  cleanedCount : n.device.cleanedCount = m.device.cleanedCount
  coalesced : n.device.status.stats.notificationsCoalesced = m.device.status.stats.notificationsCoalesced

/-- A run of live actions after a stop keeps what the stop leaves. -/
theorem stoppedSince_run {actions : List Action} (hlive : ∀ a ∈ actions, a.isLive = true) (hb : m.device.Balanced h)
    (hc : m.device.Coherent) (hs : m.device.isStopping = true) :
    m.StoppedSince (m.run actions) (m.history actions) := by
  obtain ⟨hquiescent, hmemory, hnone⟩ := quiescent_run hlive hs
  obtain ⟨hb', -⟩ := balanced_coherent_run hlive hb hc
  have hcleaned : cleaned (m.history actions) = [] ∧ failed (m.history actions) = [] := by
    have hlength := length_handled (m.history actions)
    rw [hnone, List.length_nil] at hlength
    exact ⟨List.eq_nil_of_length_eq_zero (by omega), List.eq_nil_of_length_eq_zero (by omega)⟩
  -- the ledger of the whole run, with the ledger of its first part taken off in front
  refine ⟨hmemory, ?_, ?_, ?_, ?_, hquiescent.notifications, hquiescent.cleanedCount, hquiescent.coalesced⟩
  · have haccepted := hb'.accepted_eq
    rw [accepted_append, handled_append, hnone, List.append_nil, hb.accepted_eq, List.append_assoc] at haccepted
    exact (List.append_cancel_left haccepted).symm
  · have hcompleted := hb'.cleaned_eq
    rw [cleaned_append, reclaimed_append, hcleaned.1, List.append_nil, hb.cleaned_eq, List.append_assoc] at hcompleted
    exact List.append_cancel_left hcompleted
  · rw [hb'.cleaned, hb.cleaned, cleaned_append, hcleaned.1, List.append_nil]
  · rw [hb'.copyFailures, hb.copyFailures, failed_append, hcleaned.2, List.append_nil]

/-- A read of the whole head of the Complete Queue shows the oldest address and takes it off, unless a word is still latched. -/
theorem read_head_of_cons {d : Device} (hb : d.Balanced h) {a : Address} {rest : List Address}
    (hlist : d.complete.toList = a :: rest) (hlatch : d.completeHeadLatch = none) :
    ∃ e, d.read Register.completeHead.address 8 = (some a.word.bytes, e) ∧ e.complete.toList = rest := by
  have hholds := hb.complete_holds
  rw [hlist] at hholds
  obtain ⟨complete, hpop, hrest, -⟩ := hholds.pop_of_cons
  refine ⟨(d.readCompleteHead .full).2, ?_, ?_⟩
  · rw [Device.read_head_whole]
    simp [readCompleteHead, hlatch, Device.dequeue, hpop]
  · simpa [readCompleteHead, hlatch, Device.dequeue, hpop] using hrest.toList_eq

/-- Once a stop has been requested in a run of a device whose worker runs, no byte changes, nothing leaves the Ready Queue or enters
the Complete Queue, whose addresses can still be reclaimed in order, nothing is cleaned or dropped, nobody is notified, and the
count of the coalesced notifications shows the same before and after the notifier goes. The worker is not asleep until it has
ended, and two of its steps end it, with no pass running and the notifier gone. -/
theorem stop_of_run (memory : μ) (batchFactor : Word) (line : Line) (hline : line.notifier.isSome = true)
    (before after : List Action) (hbefore : ∀ a ∈ before, a.isLive = true) (hafter : ∀ a ∈ after, a.isLive = true)
    (hstop : .requestStop ∈ before) :
    let m := (fresh memory batchFactor line).run before
    let n := m.run after
    m.StoppedSince n (m.history after) ∧
      (∀ a rest, n.device.complete.toList = a :: rest → n.device.completeHeadLatch = none →
        ∃ d, n.device.read Register.completeHead.address 8 = (some a.word.bytes, d) ∧ d.complete.toList = rest) ∧
      (n.device.phase ≠ .terminated → n.device.hasWork = true) ∧
      (2 ≤ after.count .work →
        n.device.phase = .terminated ∧ n.device.isProcessing = false ∧ n.device.line.notifier = none) := by
  intro m n
  have hfresh : (fresh memory batchFactor line).device.Balanced [] := Device.Balanced.fresh batchFactor line
  obtain ⟨hb, hc⟩ := balanced_coherent_run hbefore hfresh (Coherent.fresh batchFactor hline)
  obtain ⟨hb', hc'⟩ := balanced_coherent_run hafter hb hc
  have hs : m.device.isStopping = true := isStopping_of_mem hbefore hstop
  have hs' : n.device.isStopping = true := (quiescent_run hafter hs).1.isStopping hs
  refine ⟨stoppedSince_run hafter hb hc hs, fun a rest => read_head_of_cons hb', hasWork_of_stopping hs', ?_⟩
  intro htwo
  have hsteps : n.device.stepsToEnd = m.device.stepsToEnd - after.count .work := stepsToEnd_run hafter hs
  have hended : n.device.phase = .terminated := by
    have hle := m.device.stepsToEnd_le
    exact terminated_of_stepsToEnd (by omega)
  refine ⟨hended, ?_, hc'.notifier_eq_none_iff.2 hended⟩
  rw [Bool.eq_false_iff, ne_eq, hc'.processing_iff]
  change ¬n.device.phase = .processing
  rw [hended]
  nofun

/-- A stop between the two virtines of a pass: the first can still be reclaimed, and the second waits, with one that comes later. -/
theorem stop_of_run_amid_a_pass :
    let before : List Action :=
      [.write Register.readyTail.address [0, 16, 0, 0, 0, 0, 0, 0], .write Register.readyTail.address [0, 32, 0, 0, 0, 0, 0, 0],
        .signal, .work, .work, .requestStop]
    let after : List Action := [.work, .write Register.readyTail.address [0, 48, 0, 0, 0, 0, 0, 0], .work]
    let n := ((fresh (DenseMemory.zeros 0) 1 (.ofCapacity 1)).run before).run after
    (∀ a ∈ before, a.isLive = true) ∧ (∀ a ∈ after, a.isLive = true) ∧ .requestStop ∈ before ∧
      n.device.phase = .terminated ∧ n.device.line.notifier = none ∧ n.device.stats.cleaned = 1 ∧
      n.device.ready.toList.map (·.word) = [0x2000, 0x3000] ∧
      ∃ d, n.device.read Register.completeHead.address 8 = (some [0, 16, 0, 0, 0, 0, 0, 0], d) ∧
        d.complete.toList = [] := by
  intro before after n
  have hbefore : ∀ a ∈ before, a.isLive = true := by decide
  have hafter : ∀ a ∈ after, a.isLive = true := by decide
  have hstop : .requestStop ∈ before := by decide
  obtain ⟨hsince, hreclaim, -, hended⟩ :=
    stop_of_run (DenseMemory.zeros 0) 1 (.ofCapacity 1) rfl before after hbefore hafter hstop
  obtain ⟨hphase, -, hnotifier⟩ := hended (by decide)
  have hfirst : (⟨0x1000, by decide⟩ : Address).word.bytes = [0, 16, 0, 0, 0, 0, 0, 0] := by decide
  have hcomplete : n.device.complete.toList = [⟨0x1000, by decide⟩] := by decide +kernel
  have hlatch : n.device.completeHeadLatch = none := by decide +kernel
  refine ⟨hbefore, hafter, hstop, hphase, hnotifier, hsince.cleaned.trans ?_, ?_, hfirst ▸ hreclaim _ [] hcomplete hlatch⟩
  · decide +kernel
  · decide +kernel

end Machine

end VirtineCleaning

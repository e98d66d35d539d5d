import VirtineCleaning.Proofs.Device.Stopping
import VirtineCleaning.Proofs.Host.Calm
import VirtineCleaning.Proofs.Session.Layout

/-!
# What a session keeps

`Steady` is the invariant of a session once its snapshot is set: everything that is known of the machine, of what the listener was
handed, and of the steps of cleaning so far. Accesses and steps of the worker keep it as long as they leave the settings alone, and
so does every use of the receiver. Where all virtines were given out and came back, it says what the session reports and what is in
the memory (`Done`).
-/

namespace VirtineCleaning

/-! ## Actions and the line of a device -/

/-- A poll leaves the receiver there. -/
theorem Line.received_poll (l : Line) : (l.use .poll).2.received = l.received := by
  obtain ⟨capacity, pending, notifier, received⟩ := l
  cases pending with
  | nil => cases notifier <;> rfl
  | cons n rest => rfl

/-- Raising leaves the receiver there or gone. -/
theorem Line.received_raiseAll (l : Line) (sizes : List Nat) : (l.raiseAll sizes).received = l.received := by
  induction sizes generalizing l with
  | nil => rfl
  | cons size sizes ih =>
    have hone : (((l.raise? size).map Prod.snd).getD l).received = l.received := by
      cases hn : l.notifier with
      | none =>
        rw [Line.raise?, hn]
        rfl
      | some notifier =>
        obtain ⟨_, line, _, hraise, _, hreceived, _⟩ := Line.raise?_of_notifier hn size
        rw [hraise]
        exact hreceived
    exact (ih _).trans hone

namespace Machine

variable {μ : Type} [VirtineMemory μ]

/-- Nothing but a use of the receiver takes it away. -/
theorem keeps_received (received : Bool) : Keeps fun (m : Machine μ) _ => m.device.line.received = received where
  read offset length h := (congrArg Line.received (Device.unnoticed_read _ offset length).line).trans h
  write offset bytes h := (congrArg Line.received (Device.unnoticed_write _ offset bytes).line).trans h
  signal h := (congrArg Line.received (Device.unnoticed_ringDoorbell _).line).trans h
  requestStop h := h
  beginPass h := h
  cleanNext {m _} h := by
    rw [m.line_cleanNext, Line.received_raiseAll]
    exact h
  endPass h := h
  movePhase _ _ _ h := h
  close _ h := h

/-- So a receiver that is there stays. -/
theorem received_apply {m : Machine μ} (h : m.device.line.received = true) (a : Action) :
    (m.apply a).device.line.received = true :=
  (keeps_received true).apply (t := []) a h

/-- A step of a worker that is not at its end does nothing to the line but raise what it is said to raise. -/
theorem line_work {m : Machine μ} (hp : m.device.phase ≠ .stopping) :
    (m.apply .work).device.line = m.device.line.raiseAll (((m.stepsFrom .work).filterMap raised?).map (·.cleaned)) := by
  have hraised : [m].filterMap raised? = m.raised?.toList := filterMap_concat [] m
  have hcase := m.workerStep_case
  change m.workerStep.device.line = _
  generalize m.workerStep = next at hcase
  unfold stepsFrom
  cases hcase with
  | stop hw =>
    rw [if_neg (by simp [hw])]
    rfl
  | start hw =>
    rw [if_neg (by simp [hw])]
    rfl
  | go hw =>
    rw [if_pos hw, hraised]
    exact m.line_cleanNext
  | halt hw =>
    rw [if_pos hw, hraised]
    exact m.line_cleanNext
  | close hw => exact absurd hw hp
  | rest hw =>
    rw [if_neg (fun h => by simp [Device.hasWork, h] at hw)]
    rfl

/-- An access or a step of the worker makes at most one step of cleaning, and that from where it begins. -/
theorem eq_of_mem_stepsFrom {m n : Machine μ} {a : Action} (ha : a.isAccess = true ∨ a = .work) (hn : n ∈ m.stepsFrom a) :
    n = m := by
  rcases ha with ha | rfl
  · cases a with
    | read | write | signal => cases hn
    | _ => cases ha
  · simp only [stepsFrom] at hn
    split at hn
    · exact List.mem_singleton.1 hn
    · cases hn

/-- A write to `readyTail` leaves the settings as they are. -/
theorem settings_write_readyTail (m : Machine μ) {offset : Word} {bytes : List UInt8} {part : Part}
    (hdec : decode offset bytes.length = .register .readyTail part) : (m.apply (.write offset bytes)).settings = m.settings := by
  have henqueue : ∀ (staged : Option HalfWord) (w : Word),
      (Machine.mk ({ m.device with stagedReadyTail := staged }.enqueue w) m.memory).settings = m.settings := by
    intro staged w
    have hcase := Device.enqueue_case { m.device with stagedReadyTail := staged } w
    generalize Device.enqueue { m.device with stagedReadyTail := staged } w = next,
      Device.submitEvents { m.device with stagedReadyTail := staged } w = events at hcase
    cases hcase <;> rfl
  have hwrite : (m.device.write offset bytes).2 = m.device.writePart part (Word.ofBytes bytes) .readyTail := by
    rw [Device.write, hdec]
  rw [apply, mapDevice, hwrite]
  cases part with
  | full => exact henqueue _ _
  | low => rfl
  | high => exact henqueue none _

end Machine

namespace Session

/-- The snapshot that a session sets. -/
def Options.snapshot (o : Options) : Snapshot := ⟨0, o.snapshotSize⟩

/-- What every moment of a session over a memory keeps, with the history of its machine so far. -/
structure Steady (c : Config) (o : Options) (start : DenseMemory) (r : Reception DenseMemory) (h : History) : Prop where
  accounted : r.Accounted
  batches : r.Exact c.batchFactor
  coherent : r.machine.device.Coherent
  balanced : r.machine.device.Balanced h
  attended : r.machine.device.Attended h
  isStopping : r.machine.device.isStopping = false
  snapshot : r.machine.device.snapshot = o.snapshot
  /-- The steps of cleaning came out as the history says. -/
  steps_eq : r.trail.map (·.cleanNext.1) = h.steps
  /-- Each of them found the snapshot where it was set, and a memory as large as at first. -/
  steps : ∀ m ∈ r.trail, m.device.snapshot = o.snapshot ∧ m.memory.size = start.size
  changes : Machine.ChangesIn start r.trail r.machine.memory
  restores : Machine.Restores o.snapshot start r.trail r.machine.memory

namespace Steady

variable {c : Config} {o : Options} {start : DenseMemory} {r : Reception DenseMemory} {h : History}

/-- So it goes on through accesses and steps of the worker that leave the settings as they are. -/
theorem act (hr : Steady c o start r h) {a : Action} (ha : a.isAccess = true ∨ a = .work)
    (hsettings : (r.machine.apply a).settings = r.machine.settings) :
    Steady c o start (r.take (.act a)) (h ++ r.machine.events a) where
  accounted := Reception.accounted_take hr.accounted (.act a)
  batches := hr.batches.act (congrArg Prod.fst hsettings)
  coherent := Machine.coherent_apply (Action.isLive_of ha) hr.balanced hr.coherent
  balanced := Machine.balanced_apply a hr.balanced
  attended := Machine.attended_apply (Action.isLive_of ha) hr.balanced hr.coherent.toPhaseAgrees hr.attended
  isStopping := (r.machine.isStopping_apply ha).trans hr.isStopping
  snapshot := (congrArg Prod.snd hsettings).trans hr.snapshot
  steps_eq := by
    change (r.trail ++ r.machine.stepsFrom a).map (·.cleanNext.1) = _
    rw [List.map_append, hr.steps_eq, Machine.map_stepsFrom, History.steps_append]
  steps := by
    intro m hm
    rcases List.mem_append.1 hm with hm | hm
    · exact hr.steps m hm
    · rw [Machine.eq_of_mem_stepsFrom ha hm]
      exact ⟨hr.snapshot, hr.changes.size_eq⟩
  changes := (Machine.keeps_changesIn start).apply a hr.changes
  restores := (Machine.keeps_restores o.snapshot start).apply a hr.restores

/-- So it does when the receiver is used. -/
theorem use (hr : Steady c o start r h) (u : ReceiverUse) : Steady c o start (r.take (.use u)) h :=
  { hr with
    accounted := Reception.accounted_take hr.accounted (.use u)
    batches := hr.batches.use u
    coherent := hr.coherent.use u
    balanced := { hr.balanced with } }

/-- The notifier is there. -/
theorem notifier_ne_none (hr : Steady c o start r h) : r.machine.device.line.notifier ≠ none := by
  intro hnone
  have hstop := hr.coherent.stopping_of_ended (.inr (hr.coherent.notifier_eq_none_iff.1 hnone))
  exact absurd (hr.isStopping.symm.trans hstop) Bool.false_ne_true

/-- The steps of cleaning that cleaned a virtine are those that the history tells of. -/
theorem cleanedIn_eq (hr : Steady c o start r h) : Machine.cleanedIn r.trail = History.cleaned h := by
  rw [History.cleaned, ← hr.steps_eq, List.filterMap_map]
  rfl

/-- The notifications that were raised are as many as the device counts. -/
theorem length_raised (hr : Steady c o start r h) : r.raised.length = r.machine.device.stats.notifications := by
  have hlength := congrArg List.length hr.accounted.sequence_eq
  rwa [List.length_map, List.length_range'] at hlength

/-- The worker has not come to its end. -/
theorem phase_ne_stopping (hr : Steady c o start r h) : r.machine.device.phase ≠ .stopping := fun hphase =>
  absurd (hr.isStopping.symm.trans (hr.coherent.stopping_of_ended (.inl hphase))) Bool.false_ne_true

/-- Until it is drained, what was raised was handed out, is pending, or was coalesced. -/
theorem delivered_eq (hr : Steady c o start r h) (hthere : r.machine.device.line.received = true) :
    r.received.length + r.machine.device.line.pending.length + r.machine.device.coalesced =
      r.machine.device.stats.notifications := by
  rw [← hr.length_raised]
  exact hr.accounted.coalesced_eq hthere

variable {l : Layout} {given : Nat}

/-- The copies to the virtines of a layout do not fail. -/
theorem failed_eq_nil (hr : Steady c o start r h) (hfits : l.Fits o start.size)
    (hgiven : (History.accepted h).map Address.word = l.virtines given) (hle : given ≤ o.virtines.toNat) :
    History.failed h = [] := by
  rw [List.eq_nil_iff_forall_not_mem]
  intro a ha
  obtain ⟨step, hstep, hfailed⟩ := List.mem_filterMap.1 ha
  cases step with
  | copyFailed b =>
    obtain rfl : b = a := Option.some.inj hfailed
    have hword : b.word ∈ l.virtines given := by
      have hhandled : b ∈ History.handled h := List.mem_filterMap.2 ⟨_, hstep, rfl⟩
      rw [← hgiven, hr.balanced.accepted_eq]
      exact List.mem_map_of_mem (List.mem_append_left _ hhandled)
    obtain ⟨i, hi, hplace⟩ := List.mem_map.1 hword
    obtain ⟨-, hinside⟩ := hfits.virtine_inside (Nat.lt_of_lt_of_le (List.mem_range.1 hi) hle)
    have hsource := hfits.snapshot_inside
    -- the step that failed found the copy outside the memory
    rw [← hr.steps_eq] at hstep
    obtain ⟨m, hm, hcopy⟩ := List.mem_map.1 hstep
    obtain ⟨hsnapshot, hsize⟩ := hr.steps m hm
    obtain ⟨-, houtside⟩ := ((m.cleanNext_eq_copyFailed_iff b).1 hcopy).2
    change m.memory.size.toNat < _ ∨ m.memory.size.toNat < _ at houtside
    rw [hsize, hsnapshot, Options.snapshot, ← hplace, UInt64.toNat_zero] at houtside
    dsimp only at houtside
    omega
  | _ => cases hfailed

end Steady

/-! ## The end -/

/-- Every virtine was given out and came back. -/
structure Done (c : Config) (o : Options) (l : Layout) (start : DenseMemory) (r : Reception DenseMemory) (h : History) : Prop
    extends Steady c o start r h where
  given_eq : (History.accepted h).map Address.word = l.virtines o.virtines.toNat
  back_eq : (History.reclaimed h).length = o.virtines.toNat

namespace Done

variable {c : Config} {o : Options} {l : Layout} {start : DenseMemory} {r : Reception DenseMemory} {h : History}

/-- So it stays through steps of the worker. -/
theorem work (hd : Done c o l start r h) : Done c o l start (r.take (.act .work)) (h ++ r.machine.events .work) := by
  have hcalm := r.machine.calm_apply h (a := .work) rfl
  have hsteady := hd.toSteady.act (.inr rfl) (r.machine.settings_apply nofun)
  exact { hsteady with
    given_eq := (congrArg (List.map Address.word) hcalm.accepted).trans hd.given_eq
    back_eq := (congrArg List.length hcalm.reclaimed).trans hd.back_eq }

/-- So it does when the receiver is used. -/
theorem use (hd : Done c o l start r h) (u : ReceiverUse) : Done c o l start (r.take (.use u)) h :=
  { hd.toSteady.use u with given_eq := hd.given_eq, back_eq := hd.back_eq }

/-- All of them were cleaned, in order. -/
theorem cleaned_eq (hd : Done c o l start r h) (hfits : l.Fits o start.size) :
    (Machine.cleanedIn r.trail).map Address.word = l.virtines o.virtines.toNat := by
  have haccepted := hd.balanced.accepted_eq
  have hcleaned := hd.balanced.cleaned_eq
  rw [History.cleaned_eq_handled (hd.failed_eq_nil hfits hd.given_eq (Nat.le_refl _))] at hcleaned
  -- as many came back as were given out, so none can be left in the Ready Queue
  have hnone : r.machine.device.ready.toList = [] := by
    have hgiven := congrArg List.length hd.given_eq
    have hback := hd.back_eq
    rw [List.length_map, l.length_virtines, haccepted, hcleaned, List.length_append, List.length_append] at hgiven
    exact List.eq_nil_of_length_eq_zero (by omega)
  rw [hnone, List.append_nil] at haccepted
  rw [hd.cleanedIn_eq, History.cleaned_eq_handled (hd.failed_eq_nil hfits hd.given_eq (Nat.le_refl _)), ← haccepted, hd.given_eq]

/-- No copy failed, and there was a notification for every whole batch. -/
theorem stats_eq (hd : Done c o l start r h) (hfits : l.Fits o start.size) :
    r.machine.device.stats.copyFailures = 0 ∧
      r.machine.device.stats.notifications = o.virtines.toNat / max 1 c.batchFactor.toNat := by
  refine ⟨?_, ?_⟩
  · rw [hd.balanced.copyFailures, hd.failed_eq_nil hfits hd.given_eq (Nat.le_refl _), List.length_nil]
  have hcount : r.machine.device.stats.cleaned = o.virtines.toNat := by
    rw [hd.balanced.cleaned, ← hd.cleanedIn_eq, ← List.length_map (f := Address.word), hd.cleaned_eq hfits, l.length_virtines]
  have hsizes : (r.raised.map (·.cleaned)).sum = r.raised.length * max 1 c.batchFactor.toNat := by
    have hsame : r.raised.map (·.cleaned) = List.replicate r.raised.length (max 1 c.batchFactor.toNat) := by
      refine List.eq_replicate_iff.2 ⟨List.length_map _, ?_⟩
      intro size hsize
      obtain ⟨notice, hnotice, rfl⟩ := List.mem_map.1 hsize
      exact hd.batches.raised notice hnotice
    rw [hsame, List.sum_replicate_nat]
  -- what the last notification left over is less than a batch, so the number of batches is a quotient
  have hbound := hd.batches.batch
  have hsum := hd.accounted.cleaned_eq
  rw [hsizes, hd.length_raised, hcount] at hsum
  rw [← hsum, Nat.mul_comm, Nat.mul_add_div (by omega), Nat.div_eq_of_lt hbound, Nat.add_zero]

/-- So the worker raises nothing any more. -/
theorem line_work (hd : Done c o l start r h) (hfits : l.Fits o start.size) :
    (r.machine.apply .work).device.line = r.machine.device.line := by
  have hbefore := hd.length_raised.trans (hd.stats_eq hfits).2
  have hafter := hd.work.length_raised.trans (hd.work.stats_eq hfits).2
  have hraised : (r.take (.act .work)).raised = r.raised ++ (r.machine.stepsFrom .work).filterMap Machine.raised? :=
    List.filterMap_append
  have hnone : (r.machine.stepsFrom .work).filterMap Machine.raised? = [] := by
    rw [hraised, List.length_append, hbefore] at hafter
    exact List.eq_nil_of_length_eq_zero (by omega)
  rw [Machine.line_work hd.phase_ne_stopping, hnone]
  rfl

/-- Every virtine holds the snapshot, and so does the snapshot itself. -/
theorem restored (hd : Done c o l start r h) (hfits : l.Fits o start.size) :
    o.snapshot.Restored start (Machine.cleanedIn r.trail) r.machine.memory :=
  hd.restores (fun m hm => (hd.steps m hm).1) (hfits.apart (hd.cleaned_eq hfits))

/-- A virtine shows the snapshot, byte for byte. -/
theorem byte?_virtine (hd : Done c o l start r h) (hfits : l.Fits o start.size) (hprimed : Primed l o start) {i j : Nat}
    (hi : i < o.virtines.toNat) (hj : j < o.snapshotSize.toNat) :
    byte? r.machine.memory ((l.virtine (UInt64.ofNat i)).toNat + j) = some (patternByte j) := by
  have hmem : l.virtine (UInt64.ofNat i) ∈ (Machine.cleanedIn r.trail).map Address.word := by
    rw [hd.cleaned_eq hfits]
    exact List.mem_map_of_mem (List.mem_range.2 hi)
  obtain ⟨a, ha, hword⟩ := List.mem_map.1 hmem
  have hbyte := (hd.restored hfits).virtines a ha j hj
  have hzero : o.snapshot.address.toNat = 0 := rfl
  rw [hword, hzero, Nat.zero_add] at hbyte
  exact hbyte.trans (hprimed.snapshot j hj)

/-- So the memory is verified. -/
theorem verified (hd : Done c o l start r h) (hfits : l.Fits o start.size) (hprimed : Primed l o start) :
    verify l o r.machine.memory = true := by
  have hsize : r.machine.memory.size = start.size := hd.changes.size_eq
  have hinside : l.Fits o r.machine.memory.size := hsize ▸ hfits
  exact verify_of_restored hinside fun i hi j hj => hd.byte?_virtine hfits hprimed hi hj

/-- Every byte of the memory is known. -/
theorem byte?_eq (hd : Done c o l start r h) (hfits : l.Fits o start.size) (hprimed : Primed l o start) {i : Nat}
    (hi : i < start.size.toNat) : byte? r.machine.memory i = some (o.image i) := by
  have hplace := Nat.div_add_mod' i o.stride
  unfold Options.image
  by_cases hheld : i / o.stride ≤ o.virtines.toNat ∧ i % o.stride < o.snapshotSize.toNat
  · rw [if_pos hheld]
    cases hindex : i / o.stride with
    | zero =>
      rw [hindex, Nat.zero_mul, Nat.zero_add] at hplace
      rw [hplace] at hheld ⊢
      have hbyte := (hd.restored hfits).source i hheld.2
      have hzero : o.snapshot.address.toNat = 0 := rfl
      rw [hzero, Nat.zero_add] at hbyte
      exact hbyte.trans (hprimed.snapshot i hheld.2)
    | succ j =>
      have hbyte := hd.byte?_virtine hfits hprimed (i := j) (by omega) hheld.2
      rw [hfits.toNat_virtine (by omega), ← hindex, hplace] at hbyte
      exact hbyte
  · rw [if_neg hheld]
    -- a place outside of the virtines was never written to
    have hclear : ¬l.InVirtine o i := fun hin => hheld ((hfits.inVirtine_iff i).1 hin).2
    have hbehind : o.snapshotSize.toNat ≤ i := by
      have hsize := o.size_le_stride
      by_contra hbefore
      refine hheld ⟨?_, ?_⟩
      · rw [Nat.div_eq_of_lt (by omega)]
        exact Nat.zero_le _
      · rw [Nat.mod_eq_of_lt (by omega)]
        omega
    refine Eq.trans ?_ (hprimed.rest i hi hbehind hclear)
    by_contra hchanged
    obtain ⟨m, hm, a, hcleaned, hin⟩ := hd.changes.changed i hchanged
    have hword : a.word ∈ l.virtines o.virtines.toNat := by
      rw [← hd.cleaned_eq hfits]
      refine List.mem_map_of_mem (List.mem_filterMap.2 ⟨m, hm, ?_⟩)
      rw [hcleaned, CleanStep.cleaned?]
    obtain ⟨j, hj, hstart⟩ := List.mem_map.1 hword
    rw [mem_places, (hd.steps m hm).1, Options.snapshot, ← hstart] at hin
    exact hclear ⟨j, List.mem_range.1 hj, hin⟩

end Done

end Session

end VirtineCleaning

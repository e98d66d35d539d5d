import VirtineCleaning.Memory.Dense
import VirtineCleaning.Proofs.Host.Accesses

/-!
# Hand-over between a host and the worker

Whatever falls between the accesses of its calls, a host gets back what it submitted, in order: the addresses it reclaimed, then
those in the Complete Queue, then those in the Ready Queue are the addresses submitted, less those whose copy failed
(`hand_over`). A call that submits is calm but for its two writes, and one that reclaims but for its two reads, so each does to
the queues what its answer tells.
-/

namespace VirtineCleaning

open History

/-! ## What the replies tell -/

namespace CallLog

@[simp] theorem submitted_append (log more : CallLog) : submitted (log ++ more) = submitted log ++ submitted more :=
  List.filterMap_append

@[simp] theorem refused_append (log more : CallLog) : refused (log ++ more) = refused log ++ refused more :=
  List.filterMap_append

@[simp] theorem returned_append (log more : CallLog) : returned (log ++ more) = returned log ++ returned more :=
  List.filterMap_append

/-- A quiet call is told by no reply. -/
theorem of_isQuiet {call : Call} (hq : call.isQuiet = true) (reply : Reply) :
    submitted [(call, reply)] = [] ∧ refused [(call, reply)] = [] ∧ returned [(call, reply)] = [] := by
  cases call with
  | submit => cases hq
  | reclaim => cases hq
  | _ => exact ⟨rfl, rfl, rfl⟩

end CallLog

/-- The history of a device, its counters and its latch agree with the replies of the calls made to it. -/
structure Moment.Records (p : Moment) (log : CallLog) (latched : Option Word) : Prop where
  accepted : (accepted p.history).map Address.word = log.submitted
  reclaimed : (reclaimed p.history).map Address.word = log.returned
  rejectedFull : p.device.stats.rejectedFull = log.refused.length
  latch : p.device.completeHeadLatch = latched
  balanced : p.device.Balanced p.history

/-- Where it stays calm, the replies go on telling. -/
theorem Moment.Records.of_calm {p q : Moment} {log : CallLog} {latched : Option Word} (h : p.Records log latched)
    (hc : p.Calm q) : q.Records log latched where
  accepted := by rw [hc.accepted, h.accepted]
  reclaimed := by rw [hc.reclaimed, h.reclaimed]
  rejectedFull := by rw [hc.rejectedFull, h.rejectedFull]
  latch := by rw [hc.latch, h.latch]
  balanced := hc.balanced h.balanced

/-- Where history, counters and latch go on as further replies tell, they agree with all the replies. -/
theorem Moment.Records.append {p q : Moment} {log more : CallLog} {latched latched' : Option Word}
    (h : p.Records log latched)
    (haccepted : (History.accepted q.history).map Address.word =
      (History.accepted p.history).map Address.word ++ more.submitted)
    (hreclaimed : (History.reclaimed q.history).map Address.word =
      (History.reclaimed p.history).map Address.word ++ more.returned)
    (hrejected : q.device.stats.rejectedFull = p.device.stats.rejectedFull + more.refused.length)
    (hlatch : q.device.completeHeadLatch = latched') (hbalanced : q.device.Balanced q.history) :
    q.Records (log ++ more) latched' where
  accepted := by rw [haccepted, h.accepted, CallLog.submitted_append]
  reclaimed := by rw [hreclaimed, h.reclaimed, CallLog.returned_append]
  rejectedFull := by rw [hrejected, h.rejectedFull, CallLog.refused_append, List.length_append]
  latch := hlatch
  balanced := hbalanced

/-- What a submission is answered when it takes effect between two moments: a full queue refuses it and stays as it is, and a queue
with room takes it in behind the others. -/
inductive SubmitDecision (a : Word) (p q : Moment) : Except Host.SubmitError Unit → Prop where
  | refused (hfull : p.device.ready.isFull = true) (hready : q.device.ready = p.device.ready) :
      SubmitDecision a p q (.error .queueFull)
  | accepted (hroom : p.device.ready.isFull = false)
      (hready : q.device.ready.toList.map Address.word = p.device.ready.toList.map Address.word ++ [a])
      (htail : q.device.ready.tail = Ring.next p.device.ready.tail) : SubmitDecision a p q (.ok ())

/-- What a reclaim is answered when it takes effect between two moments: nothing where the queue is empty, and else the first
address, which leaves the queue. -/
inductive ReclaimDecision (p q : Moment) : Option Word → Prop where
  | empty (hnil : p.device.complete.toList = []) (hcomplete : q.device.complete = p.device.complete) :
      ReclaimDecision p q none
  | taken {a : Address} (hcomplete : p.device.complete.toList = a :: q.device.complete.toList) :
      ReclaimDecision p q (some a.word)

namespace Chronicle

variable {μ : Type} [VirtineMemory μ] {c : Chronicle μ} {log : CallLog} {latched : Option Word}

/-- Staging the low half of a word submits nothing yet. -/
theorem records_stage (h : c.now.Records log latched) (half : HalfWord) :
    (c.act (.write Register.readyTail.address half.bytes)).now.Records log latched ∧
      (c.act (.write Register.readyTail.address half.bytes)).now.device.stagedReadyTail = some half ∧
      (c.act (.write Register.readyTail.address half.bytes)).now.device.ready.tail = c.now.device.ready.tail := by
  obtain ⟨hwrite, hevents⟩ := c.machine.device.write_readyTail_low half
  have hbalanced := Machine.balanced_apply (.write Register.readyTail.address half.bytes) h.balanced
  simp only [now, act, Machine.apply, Machine.mapDevice, Machine.events, hwrite, hevents, List.append_nil]
    at hbalanced ⊢
  exact ⟨⟨h.accepted, h.reclaimed, h.rejectedFull, h.latch, hbalanced⟩, trivial, trivial⟩

/-- Writing the high half of a word submits it. -/
theorem records_commit (h : c.now.Records log latched) {a : Word} (ha : a ≠ 0)
    (hstaged : c.now.device.stagedReadyTail = some a.low) :
    let d := c.act (.write (Register.readyTail.address + 4) a.high.bytes)
    ∃ result, d.now.Records (log ++ [(.submit a, .submitted result)]) latched ∧
      SubmitDecision a c.now d.now result := by
  have hsubmission : c.machine.device.submission? (Register.readyTail.address + 4) a.high.bytes = some a := by
    rw [Device.submission?_high _ (HalfWord.length_bytes _), HalfWord.low_ofBytes_bytes]
    simp only [now] at hstaged
    rw [hstaged, Option.getD_some, Word.join_high_low]
  obtain ⟨staged, hwrite⟩ := Device.write_of_submission hsubmission
  have hevents : c.machine.device.writeEvents (Register.readyTail.address + 4) a.high.bytes =
      c.machine.device.submitEvents a := by
    rw [Device.writeEvents, hsubmission]
  have hbalanced := Machine.balanced_apply (.write (Register.readyTail.address + 4) a.high.bytes) h.balanced
  obtain ⟨hlatch, -⟩ := Device.enqueue_frame { c.machine.device with stagedReadyTail := staged } a
  have houtcome := Device.enqueue_outcome (d := { c.machine.device with stagedReadyTail := staged })
    h.balanced.ready_holds ha
  simp only [now, act, Machine.apply, Machine.mapDevice, Machine.events, hwrite, hevents] at hbalanced ⊢
  rcases houtcome with ⟨hsubmit, hrejected, hfull, hready⟩ | ⟨hsubmit, hrejected, hroom, hready, htail⟩
  · have hsubmit : c.machine.device.submitEvents a = [.rejectedFull ⟨a, ha⟩] := hsubmit
    rw [hsubmit] at hbalanced ⊢
    refine ⟨.error .queueFull, h.append ?_ ?_ hrejected (hlatch.trans h.latch) hbalanced, .refused hfull hready⟩
    · simp [now, CallLog.submitted]
    · simp [now, CallLog.returned]
  · have hsubmit : c.machine.device.submitEvents a = [.accepted ⟨a, ha⟩] := hsubmit
    rw [hsubmit] at hbalanced ⊢
    refine ⟨.ok (), h.append ?_ ?_ hrejected (hlatch.trans h.latch) hbalanced, .accepted hroom ?_ htail⟩
    · simp [now, CallLog.submitted]
    · simp [now, CallLog.returned]
    · rw [hready, List.map_append]
      rfl

/-- Reading the low half of `completeHead` takes an address off the Complete Queue, if it holds one. -/
theorem records_take (h : c.now.Records log none) :
    let w := c.machine.device.dequeue.1
    let answer := if w = 0 then none else some w
    let d := c.act (.read Register.completeHead.address 4)
    d.now.Records (log ++ [(.reclaim, .reclaimed answer)]) (some w) ∧ ReclaimDecision c.now d.now answer := by
  obtain ⟨hread, hevents⟩ := Device.read_completeHead_low (d := c.machine.device) h.latch
  have hbalanced := Machine.balanced_apply (.read Register.completeHead.address 4) h.balanced
  have hholds : c.machine.device.complete.Holds c.machine.device.complete.toList := h.balanced.complete_holds
  have hcase := c.machine.device.dequeue_case
  simp only [now, act, Machine.apply, Machine.mapDevice, Machine.events, hread, hevents] at hbalanced ⊢
  generalize c.machine.device.dequeue = next, c.machine.device.dequeueEvents = events at hbalanced hcase ⊢
  cases hcase with
  | empty hp =>
    refine ⟨h.append ?_ ?_ ?_ rfl hbalanced, ?_⟩
    · simp [now, CallLog.submitted]
    · simp [now, CallLog.returned]
    · simp [now, CallLog.refused]
    · rw [if_pos rfl]
      exact .empty (hholds.nil_of_pop hp) rfl
  | @taken a _ hp =>
    obtain ⟨rest, hlist, hrest, -⟩ := hholds.of_pop hp
    rw [if_neg a.word_ne_zero]
    refine ⟨h.append ?_ ?_ ?_ rfl hbalanced, .taken ?_⟩
    · simp [now, CallLog.submitted]
    · simp [now, CallLog.returned]
    · simp [now, CallLog.refused]
    · rw [hrest.toList_eq]
      exact hlist

/-- Reading the high half of `completeHead` ends the latch and reclaims nothing. -/
theorem records_unlatch {w : Word} (h : c.now.Records log (some w)) :
    (c.act (.read (Register.completeHead.address + 4) 4)).now.Records log none := by
  obtain ⟨hread, hevents⟩ := Device.read_completeHead_high (d := c.machine.device) h.latch
  have hbalanced := Machine.balanced_apply (.read (Register.completeHead.address + 4) 4) h.balanced
  simp only [now, act, Machine.apply, Machine.mapDevice, Machine.events, hread, hevents, List.append_nil]
    at hbalanced ⊢
  exact ⟨h.accepted, h.reclaimed, h.rejectedFull, rfl, hbalanced⟩

end Chronicle

/-! ## Whole calls -/

namespace Bus

variable {σ μ : Type} [VirtineMemory μ] {b : Bus σ} {At : σ → Chronicle μ → Prop} {Due : Moment → Prop} {s : σ} {c : Chronicle μ}
  {log : CallLog}

open Chronicle

/-- A submission is answered as the history tells, and as is decided between two moments of it. -/
theorem Submits.records_submit (hb : b.Submits At Due) (hs : At s c) (h : c.now.Records log none)
    {a : Word} (ha : a ≠ 0) :
    ∃ (s' : σ) (d : Chronicle μ) (result : Except Host.SubmitError Unit), Host.submit b a s = (result, s') ∧ At s' d ∧
      d.now.Records (log ++ [(.submit a, .submitted result)]) none ∧
      ∃ p q, p.Records log none ∧ [p, q] <:+: d.passed ∧ SubmitDecision a p q result := by
  have hlow : decode Register.readyTail.address 4 = .register .readyTail .low := by decide
  have hhigh : decode (Register.readyTail.address + 4) 4 = .register .readyTail .high := by decide
  -- what the four accesses see and leave
  obtain ⟨c₁, s₁, hleads₁, hs₁, hbefore⟩ := hb.readyTail hs
  obtain ⟨c₂, hleads₂, hs₂⟩ := hb.writeHalf hs₁ hlow a.low
  obtain ⟨hrecords₂, hstaged, htail₂⟩ := records_stage ((h.of_calm hleads₁.calm).of_calm hleads₂.calm) a.low
  obtain ⟨c₃, hleads₃, hs₃⟩ := hb.writeHalf hs₂ hhigh a.high
  obtain ⟨result, hrecords, hdecision⟩ :=
    records_commit (hrecords₂.of_calm hleads₃.calm) ha (hleads₃.calm.staged.trans hstaged)
  obtain ⟨c₄, s₄, hleads₄, hs₄, hafter⟩ := hb.readyTail hs₃
  have hrun : Host.submit b a s =
      (if UInt64.ofNat c₄.machine.device.ready.tail.val = UInt64.ofNat c₁.machine.device.ready.tail.val then
        .error .queueFull else .ok (), s₄) := by
    rw [Host.submit_run b ha]
    simp only [hbefore, hafter]
  -- up to the commit the tail is where it was read first, and from it on where it is read last
  have htail₃ : c₃.now.device.ready.tail = c₁.now.device.ready.tail :=
    hleads₃.calm.tail.trans (htail₂.trans hleads₂.calm.tail)
  have hanswer : result =
      if UInt64.ofNat c₄.machine.device.ready.tail.val = UInt64.ofNat c₁.machine.device.ready.tail.val then
        .error .queueFull else .ok () := by
    cases hdecision with
    | refused _ hready =>
      have hsame : c₄.machine.device.ready.tail = c₁.machine.device.ready.tail :=
        hleads₄.calm.tail.trans ((congrArg Ring.tail hready).trans htail₃)
      rw [if_pos (by rw [hsame])]
    | accepted _ _ htail =>
      have hmoved : c₄.machine.device.ready.tail = Ring.next c₁.machine.device.ready.tail :=
        hleads₄.calm.tail.trans (htail.trans (congrArg Ring.next htail₃))
      rw [if_neg]
      intro heq
      rw [hmoved] at heq
      exact Ring.next_ne (by decide) _ (ofNat_val_inj heq)
  refine ⟨s₄, c₄, result, by rw [hrun, hanswer], hs₄, hrecords.of_calm hleads₄.calm, _, _, hrecords₂.of_calm hleads₃.calm,
    ?_, hdecision⟩
  exact infix_of_leads (hleads₃.last (last_act _ _)) hleads₄

/-- A reclaim is answered as the history tells, and as is decided between two moments of it, at the first of which the facts are
due that the bus stands for. -/
theorem Shares.records_reclaim (hb : b.Shares At Due) (hs : At s c) (h : c.now.Records log none)
    (hlast : c.passed.getLast? = some c.now) :
    ∃ (s' : σ) (d : Chronicle μ) (answer : Option Word), Host.reclaim b s = (answer, s') ∧ At s' d ∧
      d.now.Records (log ++ [(.reclaim, .reclaimed answer)]) none ∧
      ∃ p q, p.Records log none ∧ Due p ∧ [p, q] <:+: d.passed ∧ ReclaimDecision p q answer := by
  obtain ⟨c₁, s₁, hleads₁, hdue, hs₁, hlow⟩ := hb.completeHead_low hs h.latch
  have hbefore := h.of_calm hleads₁.calm
  obtain ⟨hrecords, hdecision⟩ := records_take hbefore
  obtain ⟨c₂, s₂, hleads₂, hs₂, hhigh⟩ := hb.completeHead_high hs₁ hrecords.latch
  refine ⟨s₂, c₂.act (.read (Register.completeHead.address + 4) 4), _, ?_, hs₂,
    records_unlatch (hrecords.of_calm hleads₂.calm), _, _, hbefore, hdue, ?_, hdecision⟩
  · rw [Host.reclaim_run]
    simp only [hlow, hhigh, Word.join_high_low]
  · exact (infix_of_leads (hleads₁.last hlast) hleads₂).trans (List.prefix_append _ _).isInfix

end Bus

namespace Chronicle

variable {μ : Type} [VirtineMemory μ] {c : Chronicle μ} {log : CallLog}

/-- What a submission comes to. -/
theorem perform_submit (c : Chronicle μ) (a : Word) (schedule : Schedule) :
    c.perform (.submit a) schedule =
      (.submitted (Host.submit shared a ({ c with passed := [c.now] }, schedule)).1,
        (Host.submit shared a ({ c with passed := [c.now] }, schedule)).2.1) := rfl

/-- What a reclaim comes to. -/
theorem perform_reclaim (c : Chronicle μ) (schedule : Schedule) :
    c.perform .reclaim schedule =
      (.reclaimed (Host.reclaim shared ({ c with passed := [c.now] }, schedule)).1,
        (Host.reclaim shared ({ c with passed := [c.now] }, schedule)).2.1) := rfl

/-- The address zero is refused without an access. -/
theorem perform_submit_zero (c : Chronicle μ) (schedule : Schedule) :
    c.perform (.submit 0) schedule = (.submitted (.error .zeroAddress), { c with passed := [c.now] }) := rfl

/-- A call is answered as the history tells. -/
theorem records_perform (h : c.now.Records log none) (call : Call) (schedule : Schedule) :
    (c.perform call schedule).2.now.Records (log ++ [(call, (c.perform call schedule).1)]) none := by
  by_cases hq : call.isQuiet = true
  · have hcalm := (c.calmSince_perform hq schedule).now
    obtain ⟨hsubmitted, hrefused, hreturned⟩ := CallLog.of_isQuiet hq (c.perform call schedule).1
    refine h.append ?_ ?_ ?_ (hcalm.latch.trans h.latch) (hcalm.balanced h.balanced)
    · rw [hsubmitted, hcalm.accepted, List.append_nil]
    · rw [hreturned, hcalm.reclaimed, List.append_nil]
    · rw [hrefused, hcalm.rejectedFull, List.length_nil, Nat.add_zero]
  cases call with
  | submit a =>
    by_cases ha : a = 0
    · rw [ha, perform_submit_zero]
      refine h.append ?_ ?_ rfl h.latch h.balanced
      · exact (List.append_nil _).symm
      · exact (List.append_nil _).symm
    · obtain ⟨s, _, result, hrun, rfl, hrecords, -⟩ :=
        submits_shared.records_submit (s := ({ c with passed := [c.now] }, schedule)) rfl h ha
      rw [perform_submit, hrun]
      exact hrecords
  | reclaim =>
    obtain ⟨s, _, answer, hrun, rfl, hrecords, -⟩ :=
      submits_shared.records_reclaim (s := ({ c with passed := [c.now] }, schedule)) rfl h rfl
    rw [perform_reclaim, hrun]
    exact hrecords
  | _ => exact absurd rfl hq

end Chronicle

namespace Exchange

variable {μ : Type} [VirtineMemory μ]

/-- The replies of an exchange tell the history of its device. -/
theorem records_run {e : Exchange μ} (h : e.chronicle.now.Records e.log none) (turns : List Turn) :
    (e.run turns).chronicle.now.Records (e.run turns).log none := by
  induction turns generalizing e with
  | nil => exact h
  | cons turn turns ih =>
    refine ih (e := e.take turn) ?_
    cases turn with
    | background b => exact h.of_calm (e.chronicle.calm_act (.refl _) b.isQuiet_action)
    | call call schedule => exact Chronicle.records_perform h call schedule

end Exchange

/-! ## The hand-over -/

/-- Calls that submit and calls that reclaim are answered by what the queues are like at the moment that they take effect. -/
structure Chronicle.Answers {μ : Type} [VirtineMemory μ] (c : Chronicle μ) : Prop where
  /-- The address zero is refused without an access. -/
  zero : ∀ schedule : Schedule,
    c.perform (.submit 0) schedule = (.submitted (.error .zeroAddress), { c with passed := [c.now] })
  submit : ∀ (a : Word) (schedule : Schedule), a ≠ 0 → ∃ result p q,
    (c.perform (.submit a) schedule).1 = .submitted result ∧
      [p, q] <:+: (c.perform (.submit a) schedule).2.passed ∧ SubmitDecision a p q result
  reclaim : ∀ schedule : Schedule, ∃ answer p q,
    (c.perform .reclaim schedule).1 = .reclaimed answer ∧
      [p, q] <:+: (c.perform .reclaim schedule).2.passed ∧ ReclaimDecision p q answer

/-- Calls are answered as the replies before them tell. -/
theorem Chronicle.answers_of_records {μ : Type} [VirtineMemory μ] {c : Chronicle μ} {log : CallLog}
    (h : c.now.Records log none) : c.Answers where
  zero := c.perform_submit_zero
  submit a schedule ha := by
    obtain ⟨s, _, result, hrun, rfl, -, p, q, -, hpassed, hdecision⟩ :=
      submits_shared.records_submit (s := ({ c with passed := [c.now] }, schedule)) rfl h ha
    rw [perform_submit, hrun]
    exact ⟨result, p, q, rfl, hpassed, hdecision⟩
  reclaim schedule := by
    obtain ⟨s, _, answer, hrun, rfl, -, p, q, -, -, hpassed, hdecision⟩ :=
      submits_shared.records_reclaim (s := ({ c with passed := [c.now] }, schedule)) rfl h rfl
    rw [perform_reclaim, hrun]
    exact ⟨answer, p, q, rfl, hpassed, hdecision⟩

/-- What steps of cleaning leave of words that they take one after the other: those that were cleaned and those that no step came
to, but not those whose copy failed. -/
def survivors : List CleanStep → List Word → List Word
  | [], words => words
  | .cleaned _ :: steps, words => words.take 1 ++ survivors steps (words.drop 1)
  | .copyFailed _ :: steps, words => survivors steps (words.drop 1)
  | _ :: steps, words => survivors steps words

/-- Where the steps took the words in order, the survivors are the words cleaned and then the rest. -/
theorem survivors_handled (steps : List CleanStep) (rest : List Word) :
    survivors steps ((steps.filterMap CleanStep.handled?).map Address.word ++ rest) =
      (steps.filterMap CleanStep.cleaned?).map Address.word ++ rest := by
  induction steps with
  | nil => rfl
  | cons step steps ih =>
    cases step with
    | cleaned a => exact congrArg (a.word :: ·) ih
    | _ => exact ih

/-- Between the host and the worker nothing is lost, repeated or reordered. -/
structure Moment.HandedOver (p : Moment) (log : CallLog) : Prop where
  /-- What was reclaimed and then what waits, the oldest first, is what was submitted, less what could not be cleaned. -/
  returned_eq : log.returned ++ p.device.complete.toList.map Address.word ++ p.device.ready.toList.map Address.word =
    survivors p.history.steps log.submitted
  /-- The steps of cleaning took what was submitted in order, and what they have not come to waits in the Ready Queue. -/
  taken_eq : (handled p.history).map Address.word ++ p.device.ready.toList.map Address.word = log.submitted
  /-- The counters count the replies. -/
  submitted : p.device.stats.submitted = log.submitted.length
  rejectedFull : p.device.stats.rejectedFull = log.refused.length
  reclaimed : p.device.stats.reclaimed = log.returned.length

/-- What the replies tell is what was handed over. -/
theorem Moment.Records.handedOver {p : Moment} {log : CallLog} {latched : Option Word} (h : p.Records log latched) :
    p.HandedOver log := by
  have htaken : (handled p.history).map Address.word ++ p.device.ready.toList.map Address.word = log.submitted := by
    rw [← h.accepted, h.balanced.accepted_eq, List.map_append]
  refine ⟨?_, htaken, ?_, h.rejectedFull, ?_⟩
  · calc log.returned ++ p.device.complete.toList.map Address.word ++ p.device.ready.toList.map Address.word
        = (cleaned p.history).map Address.word ++ p.device.ready.toList.map Address.word := by
          rw [← h.reclaimed, h.balanced.cleaned_eq, List.map_append]
      _ = survivors p.history.steps
            ((handled p.history).map Address.word ++ p.device.ready.toList.map Address.word) :=
          (survivors_handled _ _).symm
      _ = survivors p.history.steps log.submitted := by rw [htaken]
  · rw [h.balanced.submitted, ← h.accepted, List.length_map]
  · rw [h.balanced.reclaimed, ← h.reclaimed, List.length_map]

namespace Exchange

variable {μ : Type} [VirtineMemory μ]

/-- After any turns of an exchange with a new machine, whatever falls between the accesses of its calls, nothing is lost, repeated
or reordered between the host and the worker, which holds at every moment of a call that neither submits nor reclaims, too. A call
that submits is refused exactly if its word is zero or the Ready Queue is full when the word is complete, and a call that reclaims
answers the first address of the Complete Queue when it reads the low half. -/
theorem hand_over (memory : μ) (batchFactor : Word) (line : Line) (turns : List Turn) :
    let e := (fresh memory batchFactor line).run turns
    e.chronicle.now.HandedOver e.log ∧
      (∀ (call : Call) (schedule : Schedule), call.isQuiet = true →
        ∀ p ∈ (e.chronicle.perform call schedule).2.passed, p.HandedOver e.log) ∧
      e.chronicle.Answers := by
  have hfresh : (fresh memory batchFactor line).chronicle.now.Records (fresh memory batchFactor line).log none :=
    ⟨rfl, rfl, rfl, rfl, Device.Balanced.fresh batchFactor line⟩
  have hrecords := records_run hfresh turns
  refine ⟨hrecords.handedOver, ?_, Chronicle.answers_of_records hrecords⟩
  intro call schedule hq p hp
  exact (hrecords.of_calm ((Chronicle.calmSince_perform _ hq schedule).passed p hp)).handedOver

/-- A pass begins while the second virtine is submitted, and comes to it when the size of the snapshot is set, but not its address:
its copy fails. The host gets back the first, and the third waits. -/
theorem hand_over_across_failure :
    let turns : List Turn := [.call (.submit 0x1000) [], .call (.submit 0x2000) [[], [.signal], [.work], [.work]],
      .call (.command (.setSnapshot 0 1)) [[], [], [.work]], .call .reclaim [[], [.work]], .call (.submit 0x3000) []]
    let e := (fresh (DenseMemory.zeros 0) 1 (.ofCapacity 1)).run turns
    e.log.submitted = [0x1000, 0x2000, 0x3000] ∧ e.log.returned = [0x1000] ∧
      survivors e.chronicle.history.steps e.log.submitted = [0x1000, 0x3000] ∧ e.chronicle.now.HandedOver e.log ∧
      ∀ p ∈ (e.chronicle.perform .status [[.work]]).2.passed, p.HandedOver e.log := by
  obtain ⟨hnow, hquiet, -⟩ := hand_over (DenseMemory.zeros 0) 1 (.ofCapacity 1)
    [.call (.submit 0x1000) [], .call (.submit 0x2000) [[], [.signal], [.work], [.work]],
      .call (.command (.setSnapshot 0 1)) [[], [], [.work]], .call .reclaim [[], [.work]], .call (.submit 0x3000) []]
  exact ⟨by decide, by decide, by decide, hnow, hquiet .status [[.work]] rfl⟩

end Exchange

end VirtineCleaning

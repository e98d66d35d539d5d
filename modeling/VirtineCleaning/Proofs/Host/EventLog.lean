import Mathlib.Data.List.Induction
import VirtineCleaning.Proofs.Host.Attachment

/-!
# What the log of a platform leaves out

The log of a simulated platform is meant to hold every acquisition, failure and release. It holds one event for each call, in order,
with two exceptions (`log_of_calls`). Where the registers are not mapped, or the interrupt was given out before, allocating it fails
and nothing is written; nor is it where the registers are to be mapped and the system starts no worker for the device. How each call
comes out follows from the stage that is made to fail, from what the system refuses, and from the calls before it.
-/

namespace VirtineCleaning

variable {σ ρ ι κ : Type}

/-- An item of a list that grew at its end is the last, or there is more behind it than before. -/
theorem concat_eq_append_cons_iff {α : Type} {l before after : List α} {x y : α} :
    l ++ [x] = before ++ y :: after ↔
      (before = l ∧ y = x ∧ after = []) ∨ ∃ rest, after = rest ++ [x] ∧ l = before ++ y :: rest := by
  constructor
  · intro h
    rcases List.eq_nil_or_concat after with rfl | ⟨rest, z, rfl⟩
    · obtain ⟨hl, hlast⟩ := List.append_inj' h rfl
      exact .inl ⟨hl.symm, (List.singleton_inj.mp hlast).symm, rfl⟩
    · rw [List.concat_eq_append, ← List.cons_append, ← List.append_assoc] at h
      obtain ⟨hl, hlast⟩ := List.append_inj' h rfl
      exact .inr ⟨rest, by rw [List.concat_eq_append, List.singleton_inj.mp hlast], hl⟩
  · rintro (⟨rfl, rfl, rfl⟩ | ⟨rest, rfl, rfl⟩)
    · rfl
    · rw [List.append_assoc, List.cons_append]

/-- How a call of a platform came out. -/
inductive Outcome where
  | acquired (stage : Stage)
  | failed (stage : Stage) (e : PlatformError)
  | released (stage : Stage)
deriving DecidableEq, Repr

namespace Outcome

/-- The event that tells of an outcome. -/
def event : Outcome → PlatformEvent
  | acquired stage => .acquired stage
  | failed stage _ => .failed stage
  | released stage => .released stage

/-- All outcomes are written to the log but two. -/
def recorded : Outcome → Bool
  | failed _ .irqUnavailable | failed _ (.spawn _) => false
  | _ => true

/-- Whether a receiver is there to be given out after some outcomes: the last mapping brings one, until it is given out or the
registers are unmapped. -/
def irqLeft (outcomes : List Outcome) : Bool :=
  outcomes.foldl (fun left o =>
    match o with
    | acquired .mapRegisters => true
    | acquired .allocateIrq | released .mapRegisters => false
    | _ => left) false

/-- How an acquisition comes out after other calls if its stage is not made to fail. The system may have a reason to refuse a
worker. -/
def unhindered (before : List Outcome) (refusal : Option String) : Stage → Outcome
  | .enableDevice => acquired .enableDevice
  | .requestRegion => acquired .requestRegion
  | .mapRegisters =>
    match refusal with
    | none => acquired .mapRegisters
    | some reason => failed .mapRegisters (.spawn reason)
  | .allocateIrq => if irqLeft before then acquired .allocateIrq else failed .allocateIrq .irqUnavailable

/-- How a call comes out after others, where one stage may be made to fail. -/
def next (failAt : Option Stage) (before : List Outcome) : PlatformCall ι × Option String → Outcome
  | (.release stage _, _) => released stage
  | (.acquire stage, refusal) =>
    if failAt = some stage then failed stage (.injected stage) else unhindered before refusal stage

/-- How calls come out, one after the other. -/
def ofCalls (failAt : Option Stage) (calls : List (PlatformCall ι × Option String)) : List Outcome :=
  calls.foldl (fun before call => before ++ [next failAt before call]) []

theorem ofCalls_concat (failAt : Option Stage) (calls : List (PlatformCall ι × Option String))
    (call : PlatformCall ι × Option String) :
    ofCalls failAt (calls ++ [call]) = ofCalls failAt calls ++ [next failAt (ofCalls failAt calls) call] := by
  rw [ofCalls, List.foldl_append]
  rfl

/-- Each outcome is that of a call after those before it. -/
theorem mem_ofCalls_iff {failAt : Option Stage} {calls : List (PlatformCall ι × Option String)} {o : Outcome} :
    o ∈ ofCalls failAt calls ↔
      ∃ before call after, calls = before ++ call :: after ∧ o = next failAt (ofCalls failAt before) call := by
  induction calls using List.reverseRecOn with
  | nil =>
    refine iff_of_false List.not_mem_nil ?_
    rintro ⟨before, call, after, h, -⟩
    exact List.append_ne_nil_of_right_ne_nil before (List.cons_ne_nil call after) h.symm
  | append_singleton calls last ih =>
    rw [ofCalls_concat, List.mem_append, List.mem_singleton, ih]
    constructor
    · rintro (⟨before, call, after, rfl, ho⟩ | ho)
      · exact ⟨before, call, after ++ [last], by rw [List.append_assoc, List.cons_append], ho⟩
      · exact ⟨calls, last, [], rfl, ho⟩
    · rintro ⟨before, call, after, h, ho⟩
      rcases concat_eq_append_cons_iff.mp h with ⟨rfl, rfl, -⟩ | ⟨rest, -, hcalls⟩
      · exact .inr ho
      · exact .inl ⟨before, call, rest, hcalls, ho⟩

/-- A call whose outcome is not recorded, though its stage is not made to fail: it maps the registers and gets no worker, or it
allocates an interrupt and finds no receiver. -/
def Silent (failAt : Option Stage) (before : List Outcome) (call : PlatformCall ι × Option String) : Prop :=
  (call.1 = .acquire .mapRegisters ∧ call.2.isSome ∧ failAt ≠ some .mapRegisters) ∨
    (call.1 = .acquire .allocateIrq ∧ irqLeft before = false ∧ failAt ≠ some .allocateIrq)

/-- The stage that is made to fail fails. -/
theorem next_of_failAt {failAt : Option Stage} {stage : Stage} (h : failAt = some stage) (before : List Outcome)
    (refusal : Option String) :
    next failAt before ((.acquire stage, refusal) : PlatformCall ι × Option String) = failed stage (.injected stage) := if_pos h

theorem next_of_ne {failAt : Option Stage} {stage : Stage} (h : failAt ≠ some stage) (before : List Outcome)
    (refusal : Option String) :
    next failAt before ((.acquire stage, refusal) : PlatformCall ι × Option String) = unhindered before refusal stage := if_neg h

/-- The silent calls are those whose outcome is not recorded. -/
theorem recorded_next (failAt : Option Stage) (before : List Outcome) (call : PlatformCall ι × Option String) :
    (next failAt before call).recorded = true ↔ ¬Silent failAt before call := by
  obtain ⟨call, refusal⟩ := call
  cases call with
  | release stage irq => simp [next, recorded, Silent]
  | acquire stage =>
    by_cases hstage : failAt = some stage
    · rw [next_of_failAt hstage]
      refine iff_of_true rfl ?_
      rintro (⟨⟨⟩, -, hne⟩ | ⟨⟨⟩, -, hne⟩)
      · exact hne hstage
      · exact hne hstage
    · rw [next_of_ne hstage]
      cases stage with
      | enableDevice | requestRegion => simp [unhindered, recorded, Silent]
      | mapRegisters => cases refusal <;> simp [unhindered, recorded, Silent, hstage]
      | allocateIrq => cases hleft : irqLeft before <;> simp [unhindered, recorded, Silent, hstage, hleft]

/-- Whether a receiver is left is for the last mapping or allocation to say. -/
theorem irqLeft_concat (before : List Outcome) (o : Outcome) :
    irqLeft (before ++ [o]) =
      match o with
      | acquired .mapRegisters => true
      | acquired .allocateIrq | released .mapRegisters => false
      | _ => irqLeft before := by
  rw [irqLeft, List.foldl_append]
  rfl

end Outcome

namespace Platform

variable (p : Platform σ ρ ι)

/-- Makes a call of a platform. -/
def perform (s : σ) : PlatformCall ι → Outcome × σ
  | .acquire stage =>
    match p.acquire stage s with
    | (.ok (), s) => (.acquired stage, s)
    | (.error e, s) => (.failed stage e, s)
  | .release stage irq => (.released stage, p.release stage irq s)

/-- Makes calls one after the other, each on the platform that goes with it. -/
def performEach (p : κ → Platform σ ρ ι) (s : σ) (calls : List (PlatformCall ι × κ)) : List Outcome × σ :=
  calls.foldl (fun (outcomes, s) (call, k) => (outcomes ++ [((p k).perform s call).1], ((p k).perform s call).2)) ([], s)

theorem performEach_concat (p : κ → Platform σ ρ ι) (s : σ) (calls : List (PlatformCall ι × κ)) (call : PlatformCall ι) (k : κ) :
    performEach p s (calls ++ [(call, k)]) =
      ((performEach p s calls).1 ++ [((p k).perform (performEach p s calls).2 call).1],
        ((p k).perform (performEach p s calls).2 call).2) := by
  rw [performEach, List.foldl_append]
  rfl

end Platform

namespace Simulated

/-! ## What a call changes -/

/-- An operation on the machine of a device changes that device, and may change the memory. -/
theorem onMachine_eq {α : Type} (s : Simulated) (i : Nat) (absent : α)
    (f : Machine DenseMemory → α × Machine DenseMemory) :
    ∃ memory, (s.onMachine i absent f).2 =
      { s with devices := s.devices.modify i fun d => (f ⟨d, s.memory⟩).2.device, memory } := by
  unfold onMachine
  dsimp only
  split
  · next hi =>
    refine ⟨(f ⟨s.devices[i], s.memory⟩).2.memory, ?_⟩
    have hset : s.devices.set i (f ⟨s.devices[i], s.memory⟩).2.device hi =
        s.devices.modify i fun d => (f ⟨d, s.memory⟩).2.device := by
      ext j hj hj'
      · simp
      · rw [Array.getElem_set, Array.getElem_modify]
        split <;> simp_all
    rw [← hset]
  · next hi =>
    refine ⟨s.memory, ?_⟩
    have hsame : s.devices.modify i (fun d => (f ⟨d, s.memory⟩).2.device) = s.devices := by
      ext j hj hj'
      · simp
      · rw [Array.getElem_modify, if_neg (by omega)]
    rw [hsame]

/-- Nothing was done that the calls of a platform depend on, or that they write down. -/
structure SameBooks (s t : Simulated) : Prop where
  config : t.config = s.config
  failAt : t.failAt = s.failAt
  irq : t.irq = s.irq
  log : t.log = s.log

/-- What is done to a device leaves the books alone. -/
theorem sameBooks_onMachine {α : Type} (s : Simulated) (i : Nat) (absent : α)
    (f : Machine DenseMemory → α × Machine DenseMemory) : s.SameBooks (s.onMachine i absent f).2 := by
  obtain ⟨memory, h⟩ := s.onMachine_eq i absent f
  rw [h]
  exact ⟨rfl, rfl, rfl, rfl⟩

theorem sameBooks_stopMapped (s : Simulated) : s.SameBooks s.stopMapped := by
  unfold stopMapped
  split
  · exact ⟨rfl, rfl, rfl, rfl⟩
  · exact s.sameBooks_onMachine ..

theorem sameBooks_dropReceiver (s : Simulated) (i : Nat) : s.SameBooks (dropReceiver i s) := s.sameBooks_onMachine ..

/-- The mapped device stops, its receiver goes away if it was not given out, and nothing is written down. -/
theorem sameBooks_unmapped (s : Simulated) : { s with irq := none }.SameBooks s.stopMapped.dropIrq := by
  obtain ⟨hconfig, hfailAt, -, hlog⟩ := s.sameBooks_stopMapped
  unfold dropIrq
  split
  · next hirq => exact ⟨hconfig, hfailAt, hirq, hlog⟩
  · next i _ =>
    obtain ⟨hconfig', hfailAt', -, hlog'⟩ := s.stopMapped.sameBooks_dropReceiver i
    exact ⟨hconfig'.trans hconfig, hfailAt'.trans hfailAt, rfl, hlog'.trans hlog⟩

/-! ## How a stage is acquired -/

/-- A stage that is made to fail fails, which is written down. -/
theorem attempt_of_failAt {s : Simulated} {stage : Stage} (h : s.failAt = some stage) :
    s.attempt stage = (.error (.injected stage), s.record (.failed stage)) := if_pos h

/-- A stage that is not made to fail can be attempted. -/
theorem attempt_of_ne {s : Simulated} {stage : Stage} (h : s.failAt ≠ some stage) : s.attempt stage = (.ok (), s) := if_neg h

/-- A plain stage that is made to fail is recorded as failed. -/
theorem acquirePlain_of_failAt {s : Simulated} {stage : Stage} (h : s.failAt = some stage) :
    s.acquirePlain stage = (.error (.injected stage), s.record (.failed stage)) := by
  rw [acquirePlain, attempt_of_failAt h]

theorem acquirePlain_of_ne {s : Simulated} {stage : Stage} (h : s.failAt ≠ some stage) :
    s.acquirePlain stage = (.ok (), s.record (.acquired stage)) := by
  rw [acquirePlain, attempt_of_ne h]

theorem mapRegisters_of_failAt {s : Simulated} (h : s.failAt = some .mapRegisters) (refusal : Option String) :
    s.mapRegisters refusal = (.error (.injected .mapRegisters), s.record (.failed .mapRegisters)) := by
  rw [mapRegisters, attempt_of_failAt h]

/-- Without a worker nothing is mapped and nothing is written down. -/
theorem mapRegisters_of_refusal {s : Simulated} (hvalid : s.config.validate = .ok ()) (h : s.failAt ≠ some .mapRegisters)
    (reason : String) : s.mapRegisters (some reason) = (.error (.spawn reason), s) := by
  simp only [mapRegisters, attempt_of_ne h, hvalid]

/-- Mapping the registers with a valid configuration brings a new device, which gets the next number. -/
theorem mapRegisters_of_ne {s : Simulated} (hvalid : s.config.validate = .ok ()) (h : s.failAt ≠ some .mapRegisters) :
    s.mapRegisters none = (.ok s.stopMapped.dropIrq.devices.size,
      { s.stopMapped.dropIrq with
        devices := s.stopMapped.dropIrq.devices.push (.ofConfig s.stopMapped.dropIrq.config)
        mapped := some s.stopMapped.dropIrq.devices.size
        irq := some s.stopMapped.dropIrq.devices.size
        log := s.stopMapped.dropIrq.log ++ [.acquired .mapRegisters] }) := by
  simp only [mapRegisters, attempt_of_ne h, hvalid]

theorem allocateIrq_of_failAt {s : Simulated} (h : s.failAt = some .allocateIrq) :
    s.allocateIrq = (.error (.injected .allocateIrq), s.record (.failed .allocateIrq)) := by
  rw [allocateIrq, attempt_of_failAt h]

/-- One that finds no receiver fails without a record. -/
theorem allocateIrq_of_none {s : Simulated} (h : s.failAt ≠ some .allocateIrq) (hirq : s.irq = none) :
    s.allocateIrq = (.error .irqUnavailable, s) := by
  simp only [allocateIrq, attempt_of_ne h, hirq]

/-- One that finds a receiver gives it out. -/
theorem allocateIrq_of_some {s : Simulated} (h : s.failAt ≠ some .allocateIrq) {i : Nat} (hirq : s.irq = some i) :
    s.allocateIrq = (.ok i, { s with irq := none }.record (.acquired .allocateIrq)) := by
  simp only [allocateIrq, attempt_of_ne h, hirq]

/-- So any stage that is made to fail is recorded as failed. -/
theorem acquire_of_failAt {s : Simulated} {stage : Stage} (h : s.failAt = some stage) (refusal : Option String) :
    (platformWith refusal).acquire stage s = (.error (.injected stage), s.record (.failed stage)) := by
  cases stage with
  | enableDevice | requestRegion => exact acquirePlain_of_failAt h
  | mapRegisters =>
    simp only [Platform.acquire, platformWith, mapRegisters_of_failAt h]
    rfl
  | allocateIrq =>
    simp only [Platform.acquire, platformWith, allocateIrq_of_failAt h]
    rfl

/-- What was written down after outcomes of calls, on a platform that was made with a valid configuration. -/
structure Logged (failAt : Option Stage) (outcomes : List Outcome) (s : Simulated) : Prop where
  valid : s.config.validate = .ok ()
  failAt_eq : s.failAt = failAt
  irq_eq : s.irq.isSome = Outcome.irqLeft outcomes
  log_eq : s.log = (outcomes.filter Outcome.recorded).map Outcome.event

variable {failAt : Option Stage} {outcomes : List Outcome} {s t : Simulated}

/-- The log goes on with the event of an outcome that is recorded. -/
theorem Logged.concat (h : s.Logged failAt outcomes) {o : Outcome} (hconfig : t.config = s.config)
    (hfailAt : t.failAt = s.failAt) (hirq : t.irq.isSome = Outcome.irqLeft (outcomes ++ [o]))
    (hlog : t.log = s.log ++ ([o].filter Outcome.recorded).map Outcome.event) : t.Logged failAt (outcomes ++ [o]) where
  valid := by rw [hconfig, h.valid]
  failAt_eq := hfailAt.trans h.failAt_eq
  irq_eq := hirq
  log_eq := by rw [hlog, h.log_eq, List.filter_append, List.map_append]

/-- A call comes out as it must after the outcomes before it, and is written down unless it is silent. -/
def Logged.Performs (failAt : Option Stage) (outcomes : List Outcome) (s : Simulated) (refusal : Option String)
    (call : PlatformCall Nat) : Prop :=
  ((platformWith refusal).perform s call).1 = Outcome.next failAt outcomes (call, refusal) ∧
    ((platformWith refusal).perform s call).2.Logged failAt (outcomes ++ [((platformWith refusal).perform s call).1])

/-- A stage that needs nothing of the platform is acquired if it is not made to fail. -/
theorem Logged.acquire_plain (h : s.Logged failAt outcomes) (refusal : Option String) {stage : Stage}
    (hstage : failAt ≠ some stage) (hplain : stage = .enableDevice ∨ stage = .requestRegion) :
    Performs failAt outcomes s refusal (.acquire stage) := by
  have hacquire : (platformWith refusal).acquire stage s = s.acquirePlain stage := by
    rcases hplain with rfl | rfl <;> rfl
  have hperform : (platformWith refusal).perform s (.acquire stage) = (.acquired stage, s.record (.acquired stage)) := by
    rw [Platform.perform, hacquire, acquirePlain_of_ne (h.failAt_eq ▸ hstage)]
  rw [Performs, hperform]
  refine ⟨?_, h.concat rfl rfl ?_ rfl⟩
  · rw [Outcome.next_of_ne hstage]
    rcases hplain with rfl | rfl <;> rfl
  · rw [Outcome.irqLeft_concat]
    rcases hplain with rfl | rfl <;> exact h.irq_eq

/-- Mapping the registers, where it is not made to fail, brings a device and its receiver, unless the worker is refused. -/
theorem Logged.mapRegisters (h : s.Logged failAt outcomes) (refusal : Option String) (hstage : failAt ≠ some .mapRegisters) :
    Performs failAt outcomes s refusal (.acquire .mapRegisters) := by
  have hs : s.failAt ≠ some .mapRegisters := h.failAt_eq ▸ hstage
  cases refusal with
  | some reason =>
    have hperform : (platformWith (some reason)).perform s (.acquire .mapRegisters) =
        (.failed .mapRegisters (.spawn reason), s) := by
      simp only [Platform.perform, Platform.acquire, platformWith, mapRegisters_of_refusal h.valid hs]
      rfl
    rw [Performs, hperform, Outcome.next_of_ne hstage]
    refine ⟨rfl, h.concat rfl rfl ?_ (List.append_nil _).symm⟩
    rw [Outcome.irqLeft_concat]
    exact h.irq_eq
  | none =>
    obtain ⟨hconfig, hfailAt, -, hlog⟩ := s.sameBooks_unmapped
    have hperform : (platformWith none).perform s (.acquire .mapRegisters) = (.acquired .mapRegisters,
        { s.stopMapped.dropIrq with
          devices := s.stopMapped.dropIrq.devices.push (.ofConfig s.stopMapped.dropIrq.config)
          mapped := some s.stopMapped.dropIrq.devices.size
          irq := some s.stopMapped.dropIrq.devices.size
          log := s.stopMapped.dropIrq.log ++ [.acquired .mapRegisters] }) := by
      simp only [Platform.perform, Platform.acquire, platformWith, mapRegisters_of_ne h.valid hs]
      rfl
    rw [Performs, hperform, Outcome.next_of_ne hstage]
    refine ⟨rfl, h.concat hconfig hfailAt ?_ (congrArg (· ++ [PlatformEvent.acquired .mapRegisters]) hlog)⟩
    rw [Outcome.irqLeft_concat]
    rfl

/-- An interrupt whose stage is not made to fail is allocated if its receiver is there. -/
theorem Logged.allocateIrq (h : s.Logged failAt outcomes) (refusal : Option String) (hstage : failAt ≠ some .allocateIrq) :
    Performs failAt outcomes s refusal (.acquire .allocateIrq) := by
  have hs : s.failAt ≠ some .allocateIrq := h.failAt_eq ▸ hstage
  have hleft := h.irq_eq
  rw [Performs, Outcome.next_of_ne hstage]
  cases hirq : s.irq with
  | none =>
    have hperform : (platformWith refusal).perform s (.acquire .allocateIrq) = (.failed .allocateIrq .irqUnavailable, s) := by
      simp only [Platform.perform, Platform.acquire, platformWith, allocateIrq_of_none hs hirq]
      rfl
    rw [hirq] at hleft
    rw [hperform]
    refine ⟨by simp [Outcome.unhindered, ← hleft], h.concat rfl rfl ?_ (List.append_nil _).symm⟩
    rw [Outcome.irqLeft_concat]
    exact h.irq_eq
  | some i =>
    have hperform : (platformWith refusal).perform s (.acquire .allocateIrq) =
        (.acquired .allocateIrq, { s with irq := none }.record (.acquired .allocateIrq)) := by
      simp only [Platform.perform, Platform.acquire, platformWith, allocateIrq_of_some hs hirq]
      rfl
    rw [hirq] at hleft
    rw [hperform]
    refine ⟨by simp [Outcome.unhindered, ← hleft], h.concat rfl rfl ?_ rfl⟩
    rw [Outcome.irqLeft_concat]
    rfl

/-- A stage that is made to fail fails, and that is written down. -/
theorem Logged.fault (h : s.Logged failAt outcomes) (refusal : Option String) {stage : Stage} (hstage : failAt = some stage) :
    Performs failAt outcomes s refusal (.acquire stage) := by
  have hfail : (platformWith refusal).perform s (.acquire stage) =
      (.failed stage (.injected stage), s.record (.failed stage)) := by
    rw [Platform.perform, acquire_of_failAt (h.failAt_eq.trans hstage)]
  rw [Performs, hfail, Outcome.next_of_failAt hstage]
  refine ⟨rfl, h.concat rfl rfl ?_ rfl⟩
  rw [Outcome.irqLeft_concat]
  exact h.irq_eq

/-- Every release comes out and is recorded. -/
theorem Logged.release (h : s.Logged failAt outcomes) (refusal : Option String) (stage : Stage) (irq : Option Nat) :
    Performs failAt outcomes s refusal (.release stage irq) := by
  refine ⟨rfl, ?_⟩
  cases stage with
  | enableDevice | requestRegion => exact h.concat rfl rfl (by rw [Outcome.irqLeft_concat]; exact h.irq_eq) rfl
  | mapRegisters =>
    obtain ⟨hconfig, hfailAt, hirq, hlog⟩ := s.sameBooks_unmapped
    refine h.concat hconfig hfailAt ?_ (congrArg (· ++ [PlatformEvent.released .mapRegisters]) hlog)
    rw [Outcome.irqLeft_concat]
    exact congrArg Option.isSome hirq
  | allocateIrq =>
    cases irq with
    | none => exact h.concat rfl rfl (by rw [Outcome.irqLeft_concat]; exact h.irq_eq) rfl
    | some i =>
      obtain ⟨hconfig, hfailAt, hirq, hlog⟩ := s.sameBooks_dropReceiver i
      refine h.concat hconfig hfailAt ?_ (congrArg (· ++ [PlatformEvent.released .allocateIrq]) hlog)
      rw [Outcome.irqLeft_concat]
      exact (congrArg Option.isSome hirq).trans h.irq_eq

/-- So every call comes out as the outcomes before it tell. -/
theorem Logged.perform (h : s.Logged failAt outcomes) (refusal : Option String) (call : PlatformCall Nat) :
    Performs failAt outcomes s refusal call := by
  cases call with
  | release stage irq => exact h.release refusal stage irq
  | acquire stage =>
    by_cases hstage : failAt = some stage
    · exact h.fault refusal hstage
    · cases stage with
      | enableDevice => exact h.acquire_plain refusal hstage (.inl rfl)
      | requestRegion => exact h.acquire_plain refusal hstage (.inr rfl)
      | mapRegisters => exact h.mapRegisters refusal hstage
      | allocateIrq => exact h.allocateIrq refusal hstage

/-- A platform has a valid configuration and a memory of zeros. -/
theorem ofConfig_eq_ok {config : Config} (h : ofConfig config = .ok s) :
    config.validate = .ok () ∧ s = { config, memory := .zeros config.memorySize } := by
  unfold ofConfig at h
  split at h
  · cases h
  · next hvalid =>
    cases h
    exact ⟨hvalid, rfl⟩

theorem logged_of_calls {config : Config} (h : ofConfig config = .ok s) (failAt : Option Stage)
    (calls : List (PlatformCall Nat × Option String)) :
    (Platform.performEach platformWith { s with failAt } calls).1 = Outcome.ofCalls failAt calls ∧
      (Platform.performEach platformWith { s with failAt } calls).2.Logged failAt (Outcome.ofCalls failAt calls) := by
  induction calls using List.reverseRecOn with
  | nil =>
    obtain ⟨hvalid, rfl⟩ := ofConfig_eq_ok h
    exact ⟨rfl, hvalid, rfl, rfl, rfl⟩
  | append_singleton calls call ih =>
    obtain ⟨call, refusal⟩ := call
    obtain ⟨houtcomes, hlogged⟩ := ih
    obtain ⟨hcall, hnext⟩ := hlogged.perform refusal call
    rw [hcall] at hnext
    rw [Platform.performEach_concat, Outcome.ofCalls_concat, houtcomes, hcall]
    exact ⟨rfl, hnext⟩

/-- On a platform with a valid configuration, whichever stage is made to fail and whatever workers the system refuses: how calls come
out follows from those before them, and the log holds the events of their outcomes, in order, except for the mappings that got no
worker and the allocations that found no receiver. It holds all of them exactly if there is no such call. -/
theorem log_of_calls {config : Config} (h : ofConfig config = .ok s) (failAt : Option Stage)
    (calls : List (PlatformCall Nat × Option String)) :
    let r := Platform.performEach platformWith { s with failAt } calls
    r.1 = Outcome.ofCalls failAt calls ∧
      r.2.log = (r.1.filter Outcome.recorded).map Outcome.event ∧
      (r.2.log = r.1.map Outcome.event ↔ ∀ before call after, calls = before ++ call :: after →
        ¬Outcome.Silent failAt (Outcome.ofCalls failAt before) call) := by
  intro r
  obtain ⟨houtcomes, hlogged⟩ := logged_of_calls h failAt calls
  have hlog : r.2.log = (r.1.filter Outcome.recorded).map Outcome.event := by
    rw [hlogged.log_eq, houtcomes]
  have hall : r.2.log = r.1.map Outcome.event ↔ ∀ o ∈ r.1, o.recorded = true := by
    rw [hlog]
    constructor
    · intro hsame
      have hlength := congrArg List.length hsame
      rw [List.length_map, List.length_map] at hlength
      exact List.length_filter_eq_length_iff.mp hlength
    · intro hrecorded
      rw [List.filter_eq_self.mpr hrecorded]
  refine ⟨houtcomes, hlog, hall.trans ?_⟩
  rw [houtcomes]
  constructor
  · intro hrecorded before call after hcalls
    exact (Outcome.recorded_next ..).mp (hrecorded _ (Outcome.mem_ofCalls_iff.mpr ⟨before, call, after, hcalls, rfl⟩))
  · intro hloud o ho
    obtain ⟨before, call, after, hcalls, rfl⟩ := Outcome.mem_ofCalls_iff.mp ho
    exact (Outcome.recorded_next ..).mpr (hloud before call after hcalls)

/-- A mapping without a worker fails without an event, an interrupt is given out once for each mapping, and a second allocation fails
without an event. -/
theorem log_of_calls_twice :
    ∃ s, ofConfig {} = .ok s ∧
      let r := Platform.performEach platformWith { s with failAt := some .requestRegion }
        [(.acquire .requestRegion, none), (.acquire .mapRegisters, some "no threads left"), (.acquire .mapRegisters, none),
          (.acquire .allocateIrq, none), (.acquire .allocateIrq, none)]
      r.1 = [.failed .requestRegion (.injected .requestRegion), .failed .mapRegisters (.spawn "no threads left"),
          .acquired .mapRegisters, .acquired .allocateIrq, .failed .allocateIrq .irqUnavailable] ∧
        r.2.log = [.failed .requestRegion, .acquired .mapRegisters, .acquired .allocateIrq] := by
  have hconfig : ofConfig {} = .ok { config := {}, memory := .zeros 0x1000000 } := rfl
  obtain ⟨houtcomes, hlog, -⟩ := log_of_calls hconfig (some .requestRegion)
    [(.acquire .requestRegion, none), (.acquire .mapRegisters, some "no threads left"), (.acquire .mapRegisters, none),
      (.acquire .allocateIrq, none), (.acquire .allocateIrq, none)]
  refine ⟨_, hconfig, houtcomes, ?_⟩
  rw [hlog, houtcomes]
  rfl

/-- Without a mapping the failure to allocate an interrupt is not written to the log. -/
theorem unrecorded_failure :
    ∃ s, ofConfig {} = .ok s ∧
      let r := Platform.performEach platformWith s [(.acquire .allocateIrq, none)]
      r.1 = [.failed .allocateIrq .irqUnavailable] ∧ r.2.log = [] ∧ r.2.log ≠ r.1.map Outcome.event :=
  ⟨_, rfl, rfl, rfl, nofun⟩

end Simulated

end VirtineCleaning

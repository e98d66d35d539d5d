import VirtineCleaning.Proofs.Device.Stopping
import VirtineCleaning.Proofs.Host.EventLog

/-!
# One worker at a time

The calls of a simulated platform may come in any order, and hosts and workers go on with the devices in between. A platform then holds
a device exactly while its registers are mapped, and the worker of every other device has ended: mapping again stops the device that
was mapped before, and so does unmapping. The receiver of the last mapping is given out once, unless the registers were unmapped
before (`one_worker_at_a_time`). What a platform holds is told from the answers to its calls alone, by looking back to the last one of
a kind.
-/

namespace VirtineCleaning

variable {σ ρ ι : Type}

/-! ## Looking back -/

section

variable {α β : Type} {starts ends : α → Prop} {l : List α}

/-- Something that starts is in a list, with nothing that ends behind it. -/
def HappenedSince (ends starts : α → Prop) (l : List α) : Prop :=
  ∃ before x after, l = before ++ x :: after ∧ starts x ∧ ∀ y ∈ after, ¬ends y

theorem not_happenedSince_nil : ¬HappenedSince ends starts [] := by
  rintro ⟨before, x, after, h, -⟩
  exact List.append_ne_nil_of_right_ne_nil before (List.cons_ne_nil x after) h.symm

/-- What comes last starts anew, or it ends nothing and what happened before still counts. -/
theorem happenedSince_concat {x : α} :
    HappenedSince ends starts (l ++ [x]) ↔ starts x ∨ ¬ends x ∧ HappenedSince ends starts l := by
  constructor
  · rintro ⟨before, y, after, h, hy, hafter⟩
    rcases concat_eq_append_cons_iff.mp h with ⟨-, rfl, -⟩ | ⟨rest, rfl, hl⟩
    · exact .inl hy
    · rw [List.forall_mem_append, List.forall_mem_singleton] at hafter
      exact .inr ⟨hafter.2, before, y, rest, hl, hy, hafter.1⟩
  · rintro (hx | ⟨hx, before, y, after, hl, hy, hafter⟩)
    · exact ⟨l, x, [], rfl, hx, nofun⟩
    · refine ⟨before, y, after ++ [x], concat_eq_append_cons_iff.mpr (.inr ⟨after, rfl, hl⟩), hy, ?_⟩
      rw [List.forall_mem_append, List.forall_mem_singleton]
      exact ⟨hafter, hx⟩

/-- What ends less often has happened still. -/
theorem HappenedSince.mono {ends' : α → Prop} (h : HappenedSince ends starts l) (hends : ∀ x, ends' x → ends x) :
    HappenedSince ends' starts l := by
  obtain ⟨before, x, after, hl, hx, hafter⟩ := h
  exact ⟨before, x, after, hl, hx, fun y hy => mt (hends y) (hafter y hy)⟩

/-- If one of several things happened since the last end, then one of them was the last. -/
theorem happenedSince_exists_iff {starts : β → α → Prop} :
    HappenedSince ends (fun x => ∃ b, starts b x) l ↔
      ∃ b, HappenedSince (fun x => ends x ∨ ∃ b, starts b x) (starts b) l := by
  induction l using List.reverseRecOn with
  | nil => exact iff_of_false not_happenedSince_nil fun ⟨_, h⟩ => not_happenedSince_nil h
  | append_singleton l x ih =>
    simp only [happenedSince_concat, ih]
    by_cases hx : ∃ b, starts b x
    · obtain ⟨b, hb⟩ := hx
      exact iff_of_true (.inl ⟨b, hb⟩) ⟨b, .inl hb⟩
    · constructor
      · rintro (hb | ⟨hends, b, hb⟩)
        · exact absurd hb hx
        · exact ⟨b, .inr ⟨not_or_intro hends hx, hb⟩⟩
      · rintro ⟨b, hb | ⟨hends, hb⟩⟩
        · exact absurd ⟨b, hb⟩ hx
        · exact .inr ⟨mt .inl hends, b, hb⟩

end

/-! ## Answers -/

/-- What a call of a platform answers, with the handle that it hands out. -/
inductive PlatformAnswer (ρ ι : Type) where
  | enabled
  | requested
  | mapped (registers : ρ)
  | allocated (irq : ι)
  | failed (stage : Stage) (e : PlatformError)
  | released (stage : Stage)
deriving DecidableEq, Repr

namespace PlatformAnswer

/-- The answer of an acquisition. -/
def ofAcquired {α : Type} (stage : Stage) (done : α → PlatformAnswer ρ ι) : Except PlatformError α → PlatformAnswer ρ ι
  | .ok a => done a
  | .error e => failed stage e

/-- The registers were mapped. -/
def Maps (x : PlatformAnswer ρ ι) : Prop := ∃ registers, x = mapped registers

/-- The registers were unmapped. -/
def Unmaps (x : PlatformAnswer ρ ι) : Prop := x = released .mapRegisters

/-- A receiver was given out. -/
def Gives (x : PlatformAnswer ρ ι) : Prop := ∃ irq, x = allocated irq

/-- What is held is what the last mapping brought, if nothing ended it since. -/
def HeldSince (ends : PlatformAnswer ρ ι → Prop) (held : Option ρ) (answers : List (PlatformAnswer ρ ι)) : Prop :=
  ∀ registers, held = some registers ↔ HappenedSince (fun x => ends x ∨ x.Maps) (· = mapped registers) answers

namespace HeldSince

variable {ends : PlatformAnswer ρ ι → Prop} {held : Option ρ} {answers : List (PlatformAnswer ρ ι)} {x : PlatformAnswer ρ ι}

theorem nil : HeldSince ends none ([] : List (PlatformAnswer ρ ι)) :=
  fun _ => iff_of_false nofun not_happenedSince_nil

theorem maps (registers : ρ) : HeldSince ends (some registers) (answers ++ [mapped registers]) := by
  intro other
  have hmaps : (mapped registers : PlatformAnswer ρ ι).Maps := ⟨registers, rfl⟩
  simp only [happenedSince_concat, hmaps, or_true, not_true_eq_false, false_and, or_false, mapped.injEq, Option.some.injEq]

theorem loses (hx : ends x) (hmaps : ¬x.Maps) : HeldSince ends none (answers ++ [x]) := by
  intro registers
  refine iff_of_false nofun ?_
  rw [happenedSince_concat]
  rintro (rfl | ⟨hends, -⟩)
  · exact hmaps ⟨registers, rfl⟩
  · exact hends (.inl hx)

theorem keeps (h : HeldSince ends held answers) (hx : ¬ends x) (hmaps : ¬x.Maps) : HeldSince ends held (answers ++ [x]) := by
  intro registers
  rw [happenedSince_concat, h registers]
  constructor
  · intro hheld
    exact .inr ⟨not_or_intro hx hmaps, hheld⟩
  · rintro (rfl | ⟨-, hheld⟩)
    · exact absurd ⟨registers, rfl⟩ hmaps
    · exact hheld

/-- Something is held exactly if a mapping happened since the last end. -/
theorem exists_iff (h : HeldSince ends held answers) :
    (∃ registers, held = some registers) ↔ HappenedSince ends Maps answers :=
  (exists_congr h).trans happenedSince_exists_iff.symm

end HeldSince

end PlatformAnswer

/-- Makes a call of a platform and keeps its answer. -/
def Platform.answer (p : Platform σ ρ ι) (s : σ) : PlatformCall ι → PlatformAnswer ρ ι × σ
  | .acquire .enableDevice => (.ofAcquired .enableDevice (fun _ => .enabled) (p.enableDevice s).1, (p.enableDevice s).2)
  | .acquire .requestRegion => (.ofAcquired .requestRegion (fun _ => .requested) (p.requestRegion s).1, (p.requestRegion s).2)
  | .acquire .mapRegisters => (.ofAcquired .mapRegisters .mapped (p.mapRegisters s).1, (p.mapRegisters s).2)
  | .acquire .allocateIrq => (.ofAcquired .allocateIrq .allocated (p.allocateIrq s).1, (p.allocateIrq s).2)
  | .release stage irq => (.released stage, p.release stage irq s)

namespace Simulated

open PlatformAnswer

/-! ## The workers of a platform -/

/-- The devices of a platform go on, each for itself. -/
def Carried (devices devices' : Array Device) : Prop := ∀ i : Nat, Option.Rel Device.Continues devices[i]? devices'[i]?

theorem Carried.refl (devices : Array Device) : Carried devices devices := by
  intro i
  cases devices[i]? with
  | none => exact .none
  | some d => exact .some (.refl d)

/-- A device may go on while the others stay. -/
theorem Carried.modify (devices : Array Device) (i : Nat) {f : Device → Device} (hf : ∀ d : Device, d.Continues (f d)) :
    Carried devices (devices.modify i f) := by
  intro j
  rw [Array.getElem?_modify]
  split
  · cases devices[j]? with
    | none => exact .none
    | some d => exact .some (hf d)
  · exact Carried.refl devices j

/-- Every device is found again later. -/
theorem Carried.after {devices devices' : Array Device} (h : Carried devices devices') {i : Nat} {d : Device}
    (hd : devices[i]? = some d) : ∃ e, devices'[i]? = some e ∧ d.Continues e := by
  have hi := h i
  rw [hd] at hi
  generalize devices'[i]? = o at hi
  cases hi with
  | some hgo => exact ⟨_, rfl, hgo⟩

/-- Every device was there before. -/
theorem Carried.before {devices devices' : Array Device} (h : Carried devices devices') {i : Nat} {e : Device}
    (he : devices'[i]? = some e) : ∃ d, devices[i]? = some d ∧ d.Continues e := by
  have hi := h i
  rw [he] at hi
  generalize devices[i]? = o at hi
  cases hi with
  | some hgo => exact ⟨_, rfl, hgo⟩

/-- The worker of the mapped device was not asked to stop, and those of all others have ended. -/
structure Staffed (devices : Array Device) (mapped : Option Nat) : Prop where
  sound : ∀ (i : Nat) (d : Device), devices[i]? = some d → d.Sound
  present : ∀ i, mapped = some i → ∃ d, devices[i]? = some d ∧ d.isStopping = false
  ended : ∀ (i : Nat) (d : Device), devices[i]? = some d → mapped ≠ some i → d.Ended

namespace Staffed

variable {devices devices' : Array Device} {mapped : Option Nat}

theorem empty : Staffed #[] none := ⟨by simp, nofun, by simp⟩

/-- Devices that go on stay staffed. -/
theorem carried (h : Staffed devices mapped) (hc : Carried devices devices') : Staffed devices' mapped where
  sound i e he := by
    obtain ⟨d, hd, hgo⟩ := hc.before he
    exact hgo.sound (h.sound i d hd)
  present i hi := by
    obtain ⟨d, hd, hs⟩ := h.present i hi
    obtain ⟨e, he, hgo⟩ := hc.after hd
    exact ⟨e, he, hgo.isStopping.trans hs⟩
  ended i e he hi := by
    obtain ⟨d, hd, hgo⟩ := hc.before he
    exact hgo.ended (h.sound i d hd) (h.ended i d hd hi)

/-- Stopping the mapped device ends the last worker. -/
theorem stop (h : Staffed devices mapped) {i : Nat} (hi : mapped = some i) (memory : DenseMemory) :
    Staffed (devices.modify i fun d => (Machine.mk d memory).stop.device) none := by
  have hdevice : ∀ (j : Nat) (e : Device),
      (devices.modify i fun d => (Machine.mk d memory).stop.device)[j]? = some e → e.Sound ∧ e.Ended := by
    intro j e he
    rw [Array.getElem?_modify] at he
    split at he
    -- the mapped device is stopped, and all others had ended before
    · obtain ⟨d, hd, rfl⟩ := Option.map_eq_some_iff.mp he
      exact Machine.ended_stop (h.sound j d hd)
    · next hne =>
      refine ⟨h.sound j e he, h.ended j e he ?_⟩
      rw [hi]
      exact fun hij => hne (Option.some.inj hij)
  exact ⟨fun j e he => (hdevice j e he).1, nofun, fun j e he _ => (hdevice j e he).2⟩

/-- A new device goes behind those whose workers have ended. -/
theorem push (h : Staffed devices none) (config : Config) :
    Staffed (devices.push (.ofConfig config)) (some devices.size) where
  sound i d hd := by
    rw [Array.getElem?_push] at hd
    split at hd
    · cases hd
      exact .ofConfig config
    · exact h.sound i d hd
  present i hi := by
    cases hi
    exact ⟨_, Array.getElem?_push_size, rfl⟩
  ended i d hd hi := by
    have hbehind : i ≠ devices.size := by
      rintro rfl
      exact hi rfl
    rw [Array.getElem?_push, if_neg hbehind] at hd
    exact h.ended i d hd nofun

/-- Where no device is mapped, all have ended. -/
theorem ended_of_lt (h : Staffed devices none) {i : Nat} (hi : i < devices.size) : ∃ d, devices[i]? = some d ∧ d.Ended := by
  have hd : devices[i]? = some devices[i] := Array.getElem?_eq_getElem hi
  exact ⟨_, hd, h.ended i _ hd nofun⟩

/-- The device that is mapped works. -/
theorem working (h : Staffed devices mapped) {i : Nat} (hi : mapped = some i) : ∃ d, devices[i]? = some d ∧ d.Working := by
  obtain ⟨d, hd, hs⟩ := h.present i hi
  exact ⟨d, hd, (h.sound i d hd).working hs⟩

/-- Only the device that is mapped has a worker that did not end. -/
theorem mapped_eq (h : Staffed devices mapped) {i : Nat} {d : Device} (hd : devices[i]? = some d)
    (hp : d.phase ≠ .terminated) : mapped = some i := by
  by_contra hi
  exact hp (h.ended i d hd hi).phase

end Staffed

/-! ## What a call does -/

/-- Nothing was mapped, unmapped or given out, and the devices go on. -/
structure Reworked (s t : Simulated) : Prop where
  config : t.config = s.config
  failAt : t.failAt = s.failAt
  mapped : t.mapped = s.mapped
  irq : t.irq = s.irq
  carried : Carried s.devices t.devices

theorem reworked_record (s : Simulated) (e : PlatformEvent) : s.Reworked (s.record e) :=
  ⟨rfl, rfl, rfl, rfl, .refl s.devices⟩

/-- What lets the devices go on is a rework. -/
theorem reworked_onMachine {α : Type} (s : Simulated) (i : Nat) (absent : α)
    {f : Machine DenseMemory → α × Machine DenseMemory} (hf : ∀ m : Machine DenseMemory, m.device.Continues (f m).2.device) :
    s.Reworked (s.onMachine i absent f).2 := by
  obtain ⟨memory, h⟩ := s.onMachine_eq i absent f
  rw [h]
  exact ⟨rfl, rfl, rfl, rfl, .modify s.devices i fun d => hf ⟨d, s.memory⟩⟩

/-- The receiver of a device is used, or goes away. -/
theorem reworked_use (s : Simulated) (i : Nat) (u : ReceiverUse) : s.Reworked (s.onLine i [] (·.use u)).2 :=
  s.reworked_onMachine i [] fun m => .use m.device u

/-- So is letting go of a receiver. -/
theorem reworked_dropReceiver (s : Simulated) (i : Nat) : s.Reworked (dropReceiver i s) :=
  s.reworked_onMachine i () fun m => .use m.device .drop

/-- Stopping the mapped device leaves as many devices as there were, and no worker. -/
theorem stopMapped_eq (s : Simulated) : ∃ devices memory, s.stopMapped = { s with devices, memory } ∧
    devices.size = s.devices.size ∧ (Staffed s.devices s.mapped → Staffed devices none) := by
  unfold stopMapped
  split
  · next hmapped => exact ⟨s.devices, s.memory, rfl, rfl, fun h => hmapped ▸ h⟩
  · next i hmapped =>
    obtain ⟨memory, hstop⟩ := s.onMachine_eq i () fun m => ((), m.stop)
    exact ⟨_, memory, hstop, Array.size_modify, fun h => h.stop hmapped s.memory⟩

/-- The receiver that was not given out goes away. -/
theorem dropIrq_eq (s : Simulated) : ∃ devices memory, s.dropIrq = { s with devices, memory, irq := none } ∧
    devices.size = s.devices.size ∧ Carried s.devices devices := by
  unfold dropIrq
  split
  · next hirq => exact ⟨s.devices, s.memory, by rw [← hirq], rfl, .refl s.devices⟩
  · next i _ =>
    obtain ⟨memory, hdrop⟩ := s.onMachine_eq i () fun m =>
      ((), { m with device := { m.device with line := m.device.line.closeReceiver } })
    refine ⟨_, memory, ?_, Array.size_modify, .modify s.devices i fun d => .use d .drop⟩
    exact congrArg (fun t : Simulated => { t with irq := none }) hdrop

/-- Both together leave the platform without a worker and without a receiver. -/
theorem dismissed_eq (s : Simulated) : ∃ devices memory,
    s.stopMapped.dropIrq = { s with devices, memory, irq := none } ∧ devices.size = s.devices.size ∧
      (Staffed s.devices s.mapped → Staffed devices none) := by
  obtain ⟨stopped, memory, hstop, hsize, hnone⟩ := s.stopMapped_eq
  obtain ⟨devices, memory', hdrop, hsize', hcarried⟩ := s.stopMapped.dropIrq_eq
  rw [hstop] at hdrop hsize' hcarried
  exact ⟨devices, memory', hstop ▸ hdrop, hsize'.trans hsize, fun h => (hnone h).carried hcarried⟩

/-- The ways that a call can go, with its answer and the platform after it. -/
inductive CallCase (s : Simulated) : PlatformAnswer Nat Nat → Simulated → Prop where
  | maps {devices : Array Device} {memory : DenseMemory} {log : List PlatformEvent} (hsize : devices.size = s.devices.size)
      (hstaffed : Staffed s.devices s.mapped → Staffed devices none) :
      CallCase s (.mapped devices.size)
        { s with
          devices := devices.push (.ofConfig s.config), memory, log
          mapped := some devices.size, irq := some devices.size }
  | unmaps {devices : Array Device} {memory : DenseMemory} {log : List PlatformEvent} (hsize : devices.size = s.devices.size)
      (hstaffed : Staffed s.devices s.mapped → Staffed devices none) :
      CallCase s (.released .mapRegisters) { s with devices, memory, mapped := none, irq := none, log }
  | gives {i : Nat} {log : List PlatformEvent} (hirq : s.irq = some i) :
      CallCase s (.allocated i) { s with irq := none, log }
  | goesOn {answer : PlatformAnswer Nat Nat} {t : Simulated} (hanswer : ¬answer.Maps ∧ ¬answer.Unmaps ∧ ¬answer.Gives)
      (hre : s.Reworked t) : CallCase s answer t

/-- A call that fails does no more than rework the platform. -/
theorem CallCase.failed {s t : Simulated} (stage : Stage) (e : PlatformError) (h : s.Reworked t) :
    CallCase s (.failed stage e) t :=
  .goesOn (by simp [Maps, Unmaps, Gives]) h

theorem Reworked.refl (s : Simulated) : s.Reworked s := ⟨rfl, rfl, rfl, rfl, .refl s.devices⟩

/-- A stage that is made to fail answers so. -/
theorem answer_of_failAt {s : Simulated} {stage : Stage} (h : s.failAt = some stage) (refusal : Option String) :
    (platformWith refusal).answer s (.acquire stage) = (.failed stage (.injected stage), s.record (.failed stage)) := by
  cases stage with
  | enableDevice | requestRegion => simp only [Platform.answer, platformWith, acquirePlain_of_failAt h, ofAcquired]
  | mapRegisters => simp only [Platform.answer, platformWith, mapRegisters_of_failAt h, ofAcquired]
  | allocateIrq => simp only [Platform.answer, platformWith, allocateIrq_of_failAt h, ofAcquired]

/-- An acquisition that is not made to fail maps, gives out a receiver, or leaves what the platform holds as it is: so does a mapping
without a worker. -/
theorem acquire_case {s : Simulated} (hvalid : s.config.validate = .ok ()) (refusal : Option String) {stage : Stage}
    (h : s.failAt ≠ some stage) :
    CallCase s ((platformWith refusal).answer s (.acquire stage)).1 ((platformWith refusal).answer s (.acquire stage)).2 := by
  cases stage with
  | enableDevice | requestRegion =>
    simp only [Platform.answer, platformWith, acquirePlain_of_ne h, ofAcquired]
    exact .goesOn (by simp [Maps, Unmaps, Gives]) (s.reworked_record _)
  | mapRegisters =>
    cases refusal with
    | some reason =>
      simp only [Platform.answer, platformWith, mapRegisters_of_refusal hvalid h, ofAcquired]
      exact .failed _ _ (.refl s)
    | none =>
      obtain ⟨devices, memory, hdismissed, hsize, hstaffed⟩ := s.dismissed_eq
      simp only [Platform.answer, platformWith, mapRegisters_of_ne hvalid h, hdismissed, ofAcquired]
      exact .maps hsize hstaffed
  | allocateIrq =>
    cases hirq : s.irq with
    | none =>
      simp only [Platform.answer, platformWith, allocateIrq_of_none h hirq, ofAcquired]
      exact .failed _ _ (.refl s)
    | some i =>
      simp only [Platform.answer, platformWith, allocateIrq_of_some h hirq, ofAcquired]
      exact .gives hirq

/-- A release unmaps, or leaves what the platform holds as it is. -/
theorem release_case (s : Simulated) (refusal : Option String) (stage : Stage) (irq : Option Nat) :
    CallCase s ((platformWith refusal).answer s (.release stage irq)).1
      ((platformWith refusal).answer s (.release stage irq)).2 := by
  cases stage with
  | enableDevice | requestRegion => exact .goesOn (by simp [Platform.answer, Maps, Unmaps, Gives]) (s.reworked_record _)
  | mapRegisters =>
    obtain ⟨devices, memory, hdismissed, hsize, hstaffed⟩ := s.dismissed_eq
    simp only [Platform.answer, platformWith, Platform.release, unmapRegisters, hdismissed]
    exact .unmaps hsize hstaffed
  | allocateIrq =>
    refine .goesOn (by simp [Platform.answer, Maps, Unmaps, Gives]) ?_
    cases irq with
    | none => exact s.reworked_record _
    | some i =>
      obtain ⟨hconfig, hfailAt, hmapped, hirq, hcarried⟩ := s.reworked_dropReceiver i
      exact ⟨hconfig, hfailAt, hmapped, hirq, hcarried⟩

theorem call_case {s : Simulated} (hvalid : s.config.validate = .ok ()) (refusal : Option String) (call : PlatformCall Nat) :
    CallCase s ((platformWith refusal).answer s call).1 ((platformWith refusal).answer s call).2 := by
  cases call with
  | acquire stage =>
    by_cases hfail : s.failAt = some stage
    · rw [answer_of_failAt hfail]
      exact .failed _ _ (s.reworked_record _)
    · exact acquire_case hvalid refusal hfail
  | release stage irq => exact s.release_case refusal stage irq

/-! ## Runs -/

/-- One thing that happens on a platform: a call, an access to a device or a step of its worker, a use of its receiver, or a store of
the host to the memory. A call is made on a system that may have a reason to refuse a worker. -/
inductive Turn where
  | call (c : PlatformCall Nat) (refusal : Option String := none)
  | act (i : Nat) (a : Action) (h : a.isAccess = true ∨ a = .work)
  | receive (i : Nat) (u : ReceiverUse)
  | store (memory : DenseMemory)

/-- What a turn does, and the answers with its own. -/
def take (r : List (PlatformAnswer Nat Nat) × Simulated) : Turn → List (PlatformAnswer Nat Nat) × Simulated
  | .call c refusal => (r.1 ++ [((platformWith refusal).answer r.2 c).1], ((platformWith refusal).answer r.2 c).2)
  | .act i a _ => (r.1, (r.2.onMachine i () fun m => ((), m.apply a)).2)
  | .receive i u => (r.1, (r.2.onLine i [] (·.use u)).2)
  | .store memory => (r.1, { r.2 with memory })

/-- Takes turns, one after the other. -/
def takeAll (s : Simulated) (turns : List Turn) : List (PlatformAnswer Nat Nat) × Simulated := turns.foldl take ([], s)

/-- Every mapping left a device, and the worker of one that was replaced or unmapped since has ended. -/
def Replaced (answers : List (PlatformAnswer Nat Nat)) (devices : Array Device) : Prop :=
  ∀ before i after, answers = before ++ .mapped i :: after →
    ∃ d, devices[i]? = some d ∧ ((∃ y ∈ after, y.Unmaps ∨ y.Maps) → d.Ended)

/-- What was replaced stays replaced by what follows. -/
theorem Replaced.concat {answers : List (PlatformAnswer Nat Nat)} {devices devices' : Array Device}
    (h : Replaced answers devices) {x : PlatformAnswer Nat Nat}
    (hold : ∀ (i : Nat) (d : Device), devices[i]? = some d →
      ∃ e, devices'[i]? = some e ∧ (d.Ended → e.Ended) ∧ (x.Unmaps ∨ x.Maps → e.Ended))
    (hnew : ∀ i, x = .mapped i → ∃ e, devices'[i]? = some e) : Replaced (answers ++ [x]) devices' := by
  intro before i after hsplit
  -- the mapping is the new answer itself, or one before it
  rcases concat_eq_append_cons_iff.mp hsplit with ⟨-, hx, rfl⟩ | ⟨rest, rfl, hanswers⟩
  · obtain ⟨e, he⟩ := hnew i hx.symm
    exact ⟨e, he, nofun⟩
  · obtain ⟨d, hd, hended⟩ := h before i rest hanswers
    obtain ⟨e, he, hkept, hends⟩ := hold i d hd
    refine ⟨e, he, ?_⟩
    rintro ⟨y, hy, hyends⟩
    rcases List.mem_append.mp hy with hy | hy
    · exact hkept (hended ⟨y, hy, hyends⟩)
    · rw [List.mem_singleton.mp hy] at hyends
      exact hends hyends

/-- A call that neither maps nor unmaps replaces nothing. -/
theorem Replaced.keeps {answers : List (PlatformAnswer Nat Nat)} {devices : Array Device} (h : Replaced answers devices)
    {x : PlatformAnswer Nat Nat} (hunmaps : ¬x.Unmaps) (hmaps : ¬x.Maps) : Replaced (answers ++ [x]) devices :=
  h.concat (fun _ d hd => ⟨d, hd, id, fun hends => absurd hends (not_or_intro hunmaps hmaps)⟩)
    fun i hi => absurd ⟨i, hi⟩ hmaps

/-- What a platform holds after some answers. -/
structure Custody (failAt : Option Stage) (answers : List (PlatformAnswer Nat Nat)) (s : Simulated) : Prop where
  valid : s.config.validate = .ok ()
  failAt_eq : s.failAt = failAt
  staffed : Staffed s.devices s.mapped
  mapped : HeldSince Unmaps s.mapped answers
  irq : HeldSince (fun x => x.Unmaps ∨ x.Gives) s.irq answers
  replaced : Replaced answers s.devices

namespace Custody

variable {failAt : Option Stage} {answers : List (PlatformAnswer Nat Nat)} {s t : Simulated}

/-- What is done to the devices alone leaves them in custody. -/
theorem reworked (h : Custody failAt answers s) (hre : s.Reworked t) : Custody failAt answers t where
  valid := by rw [hre.config, h.valid]
  failAt_eq := hre.failAt.trans h.failAt_eq
  staffed := hre.mapped ▸ h.staffed.carried hre.carried
  mapped := hre.mapped ▸ h.mapped
  irq := hre.irq ▸ h.irq
  replaced before i after hsplit := by
    obtain ⟨d, hd, hended⟩ := h.replaced before i after hsplit
    obtain ⟨e, he, hgo⟩ := hre.carried.after hd
    exact ⟨e, he, fun hends => hgo.ended (h.staffed.sound i d hd) (hended hends)⟩

theorem call (h : Custody failAt answers s) {answer : PlatformAnswer Nat Nat} (hcase : CallCase s answer t) :
    Custody failAt (answers ++ [answer]) t := by
  cases hcase with
  | @maps devices memory log hsize hstaffed =>
    have hnone := hstaffed h.staffed
    refine ⟨h.valid, h.failAt_eq, hnone.push s.config, .maps _, .maps _, h.replaced.concat ?_ ?_⟩
    · intro i d hd
      obtain ⟨hi, -⟩ := Array.getElem?_eq_some_iff.mp hd
      obtain ⟨e, he, hend⟩ := hnone.ended_of_lt (hsize ▸ hi)
      refine ⟨e, ?_, fun _ => hend, fun _ => hend⟩
      rw [Array.getElem?_push, if_neg (by omega), he]
    · rintro i ⟨⟩
      exact ⟨_, Array.getElem?_push_size⟩
  | @unmaps devices memory log hsize hstaffed =>
    have hnone := hstaffed h.staffed
    refine ⟨h.valid, h.failAt_eq, hnone, .loses rfl nofun, .loses (.inl rfl) nofun, h.replaced.concat ?_ nofun⟩
    intro i d hd
    obtain ⟨hi, -⟩ := Array.getElem?_eq_some_iff.mp hd
    obtain ⟨e, he, hend⟩ := hnone.ended_of_lt (hsize ▸ hi)
    exact ⟨e, he, fun _ => hend, fun _ => hend⟩
  | @gives i log hirq =>
    exact ⟨h.valid, h.failAt_eq, h.staffed, h.mapped.keeps nofun nofun, .loses (.inr ⟨i, rfl⟩) nofun,
      h.replaced.keeps nofun nofun⟩
  | goesOn hanswer hre =>
    obtain ⟨hmaps, hunmaps, hgives⟩ := hanswer
    obtain ⟨hvalid, hfailAt, hstaffed, hmapped, hirq, hreplaced⟩ := h.reworked hre
    exact ⟨hvalid, hfailAt, hstaffed, hmapped.keeps hunmaps hmaps, hirq.keeps (not_or_intro hunmaps hgives) hmaps,
      hreplaced.keeps hunmaps hmaps⟩

/-- A turn leaves the devices in custody. -/
theorem take {r : List (PlatformAnswer Nat Nat) × Simulated} (h : Custody failAt r.1 r.2) (turn : Turn) :
    Custody failAt (Simulated.take r turn).1 (Simulated.take r turn).2 := by
  cases turn with
  | call c refusal => exact h.call (call_case h.valid refusal c)
  | act i a ha => exact h.reworked (r.2.reworked_onMachine i () fun m => m.continues_apply ha)
  | receive i u => exact h.reworked (r.2.reworked_use i u)
  | store memory => exact h.reworked ⟨rfl, rfl, rfl, rfl, .refl r.2.devices⟩

theorem takeAll {config : Config} (h : ofConfig config = .ok s) (failAt : Option Stage) (turns : List Turn) :
    Custody failAt (takeAll { s with failAt } turns).1 (takeAll { s with failAt } turns).2 := by
  induction turns using List.reverseRecOn with
  | nil =>
    obtain ⟨hvalid, rfl⟩ := ofConfig_eq_ok h
    exact ⟨hvalid, rfl, .empty, .nil, .nil, fun before i after hsplit =>
      absurd hsplit.symm (List.append_ne_nil_of_right_ne_nil before (List.cons_ne_nil _ after))⟩
  | append_singleton turns turn ih =>
    rw [Simulated.takeAll, List.foldl_append]
    exact ih.take turn

/-- A device is there exactly while registers are mapped. -/
theorem device?_isSome (h : Custody failAt answers s) : s.device?.isSome = true ↔ HappenedSince Unmaps Maps answers := by
  rw [← h.mapped.exists_iff]
  constructor
  · intro hsome
    obtain ⟨d, hd⟩ := Option.isSome_iff_exists.mp hsome
    obtain ⟨i, hi, -⟩ := Option.bind_eq_some_iff.mp hd
    exact ⟨i, hi⟩
  · rintro ⟨i, hi⟩
    obtain ⟨d, hd, -⟩ := h.staffed.present i hi
    rw [device?, hi, Option.bind_some, hd]
    rfl

/-- The receiver of the mapped device is given out, if one is there and no fault is injected. -/
theorem allocateIrq_eq_ok_iff (h : Custody failAt answers s) (i : Nat) :
    (platform.allocateIrq s).1 = .ok i ↔ failAt ≠ some .allocateIrq ∧ s.irq = some i := by
  rw [← h.failAt_eq]
  change s.allocateIrq.1 = .ok i ↔ _
  by_cases hfail : s.failAt = some .allocateIrq
  · rw [allocateIrq_of_failAt hfail]
    exact iff_of_false nofun fun hok => hok.1 hfail
  · cases hirq : s.irq with
    | none =>
      rw [allocateIrq_of_none hfail hirq]
      exact iff_of_false nofun fun hok => Option.some_ne_none i hok.2.symm
    | some j =>
      rw [allocateIrq_of_some hfail hirq]
      simp [hfail]

/-- A receiver that is there is that of the mapped device. -/
theorem irq_eq (h : Custody failAt answers s) {i : Nat} (hi : s.irq = some i) :
    s.mapped = some i ∧ HappenedSince Maps (· = .mapped i) answers := by
  have hheld := (h.irq i).mp hi
  refine ⟨(h.mapped i).mpr (hheld.mono ?_), hheld.mono fun x hx => .inr hx⟩
  rintro x (hx | hx)
  · exact .inl (.inl hx)
  · exact .inr hx

end Custody

/-- On a platform with a valid configuration, whichever stage is made to fail and whatever workers the system refuses, after calls
in any order with anything that hosts and workers do in between: a device is there exactly if the registers were mapped since they
were last unmapped. The worker of each device that was mapped has ended, with its notifier gone, if another was mapped or the
registers were unmapped since, and otherwise the device is the one that is there, and works; so no two workers run. The interrupt
can be allocated exactly if no fault is injected there and the registers were mapped since they were last unmapped and since a
receiver was last given out, and the receiver is that of the mapped device, the last of all. Without such a mapping, and without a
fault, none is available, and the devices and the receiver stay. -/
theorem one_worker_at_a_time {config : Config} {s : Simulated} (h : ofConfig config = .ok s) (failAt : Option Stage)
    (turns : List Turn) :
    let answers := (takeAll { s with failAt } turns).1
    let t := (takeAll { s with failAt } turns).2
    (t.device?.isSome = true ↔ HappenedSince Unmaps Maps answers) ∧
      (∀ before i after, answers = before ++ .mapped i :: after →
        ∃ d, t.devices[i]? = some d ∧ ((∃ y ∈ after, y.Unmaps ∨ y.Maps) → d.Ended) ∧
          ((∀ y ∈ after, ¬(y.Unmaps ∨ y.Maps)) → t.device? = some d ∧ d.Working)) ∧
      (∀ (i j : Nat) (d e : Device), t.devices[i]? = some d → t.devices[j]? = some e → d.phase ≠ .terminated →
        e.phase ≠ .terminated → i = j) ∧
      ((∃ i, (platform.allocateIrq t).1 = .ok i) ↔
        failAt ≠ some .allocateIrq ∧ HappenedSince (fun x => x.Unmaps ∨ x.Gives) Maps answers) ∧
      (∀ i, (platform.allocateIrq t).1 = .ok i → t.mapped = some i ∧ HappenedSince Maps (· = .mapped i) answers) ∧
      (failAt ≠ some .allocateIrq → ¬HappenedSince (fun x => x.Unmaps ∨ x.Gives) Maps answers →
        (platform.allocateIrq t).1 = .error .irqUnavailable ∧ (platform.allocateIrq t).2.devices = t.devices ∧
          (platform.allocateIrq t).2.mapped = t.mapped ∧ (platform.allocateIrq t).2.irq = t.irq) := by
  intro answers t
  have hcustody : Custody failAt answers t := Custody.takeAll h failAt turns
  refine ⟨hcustody.device?_isSome, ?_, ?_, ?_, ?_, ?_⟩
  · intro before i after hsplit
    obtain ⟨d, hd, hended⟩ := hcustody.replaced before i after hsplit
    refine ⟨d, hd, hended, fun hlast => ?_⟩
    -- nothing was mapped or unmapped behind it, so it is the device that is mapped now
    have hmapped : t.mapped = some i := (hcustody.mapped i).mpr ⟨before, _, after, hsplit, rfl, hlast⟩
    obtain ⟨e, he, hworking⟩ := hcustody.staffed.working hmapped
    obtain rfl : d = e := Option.some.inj (hd.symm.trans he)
    exact ⟨by rw [device?, hmapped, Option.bind_some, hd], hworking⟩
  · intro i j d e hd he hpd hpe
    have hi := hcustody.staffed.mapped_eq hd hpd
    have hj := hcustody.staffed.mapped_eq he hpe
    exact Option.some.inj (hi.symm.trans hj)
  · rw [← hcustody.irq.exists_iff, ← exists_and_left]
    exact exists_congr hcustody.allocateIrq_eq_ok_iff
  · intro i hi
    exact hcustody.irq_eq ((hcustody.allocateIrq_eq_ok_iff i).mp hi).2
  · intro hfail hnone
    have hirq : t.irq = none := by
      rw [← hcustody.irq.exists_iff, ← Option.ne_none_iff_exists', not_not] at hnone
      exact hnone
    have heq : platform.allocateIrq t = (.error .irqUnavailable, t) :=
      allocateIrq_of_none (hcustody.failAt_eq ▸ hfail) hirq
    rw [heq]
    exact ⟨rfl, rfl, rfl, rfl⟩

/-- The registers are mapped again in the middle of a pass, and the new receiver is given out: the first worker has ended, the second
works, and there is no further receiver. -/
theorem one_worker_at_a_time_mapped_twice :
    let submit : Action := .write Register.readyTail.address [0, 16, 0, 0, 0, 0, 0, 0]
    let amidAPass : List Turn :=
      [.call (.acquire .mapRegisters), .act 0 submit (.inl rfl), .act 0 .signal (.inl rfl), .act 0 .work (.inr rfl)]
    let turns := amidAPass ++ [.call (.acquire .mapRegisters), .call (.acquire .allocateIrq)]
    ∃ s, ofConfig {} = .ok s ∧
      ((takeAll s amidAPass).2.devices[0]?.map (·.phase)) = some .processing ∧
      (takeAll s turns).1 = [.mapped 0, .mapped 1, .allocated 1] ∧
      (∃ d, (takeAll s turns).2.devices[0]? = some d ∧ d.Ended) ∧
      (∃ d, (takeAll s turns).2.device? = some d ∧ d.Working) ∧
      (platform.allocateIrq (takeAll s turns).2).1 = .error .irqUnavailable := by
  intro submit amidAPass turns
  have hconfig : ofConfig {} = .ok { config := {}, memory := .zeros 0x1000000 } := rfl
  obtain ⟨-, hworkers, -, -, -, hnone⟩ := one_worker_at_a_time hconfig none turns
  have hanswers : (takeAll { config := {}, memory := .zeros 0x1000000 } turns).1 = [.mapped 0, .mapped 1, .allocated 1] := by
    decide +kernel
  obtain ⟨d, hd, hended, -⟩ := hworkers [] 0 _ hanswers
  obtain ⟨e, -, -, hworking⟩ := hworkers [.mapped 0] 1 _ hanswers
  have hmapped : ∃ y ∈ ([.mapped 1, .allocated 1] : List (PlatformAnswer Nat Nat)), y.Unmaps ∨ y.Maps :=
    ⟨.mapped 1, List.mem_cons_self, .inr ⟨1, rfl⟩⟩
  refine ⟨_, hconfig, ?_, hanswers, ⟨d, hd, hended hmapped⟩, ⟨e, hworking ?_⟩, (hnone nofun ?_).1⟩
  · decide +kernel
  · intro y hy
    rw [List.mem_singleton.mp hy]
    exact not_or_intro nofun nofun
  · -- the receiver was given out after the last mapping
    have hlast : (takeAll { config := {}, memory := .zeros 0x1000000 } turns).1 = [.mapped 0, .mapped 1] ++ [.allocated 1] :=
      hanswers
    rw [hlast, happenedSince_concat]
    rintro (⟨_, hmaps⟩ | ⟨hgives, -⟩)
    · cases hmaps
    · exact hgives (.inr ⟨1, rfl⟩)

end Simulated

end VirtineCleaning

import VirtineCleaning.Proofs.Device.Ledger
import VirtineCleaning.Proofs.Host.Interleaving

/-!
# What leaves the host's ends of the queues alone

The worker takes addresses off the head of the Ready Queue and posts them at the tail of the Complete Queue; the host works at the
other two ends. `Calm` says that between two moments nothing happened at the host's ends: it holds across steps of the worker and
across every access but those to `readyTail` that write and those to `completeHead`, so it holds across calls made of such accesses,
whatever falls between them.
-/

namespace VirtineCleaning

open History

/-- The action is a step of the worker, a ring, or an access that neither writes `readyTail` nor reads `completeHead`. -/
def Action.isQuiet : Action → Bool
  | .read offset length =>
    match decode offset length with
    | .register .completeHead _ => false
    | _ => true
  | .write offset bytes =>
    match decode offset bytes.length with
    | .register .readyTail _ => false
    | _ => true
  | .signal | .work => true
  | _ => false

/-- From one moment to another nothing was submitted or reclaimed, and nothing staged for that. -/
structure Moment.Calm (p q : Moment) : Prop where
  accepted : accepted q.history = accepted p.history
  reclaimed : reclaimed q.history = reclaimed p.history
  rejectedFull : q.device.stats.rejectedFull = p.device.stats.rejectedFull
  tail : q.device.ready.tail = p.device.ready.tail
  staged : q.device.stagedReadyTail = p.device.stagedReadyTail
  latch : q.device.completeHeadLatch = p.device.completeHeadLatch
  balanced : p.device.Balanced p.history → q.device.Balanced q.history

namespace Moment.Calm

variable {p q r : Moment}

theorem refl (p : Moment) : p.Calm p := ⟨rfl, rfl, rfl, rfl, rfl, rfl, id⟩

theorem trans (h : p.Calm q) (k : q.Calm r) : p.Calm r where
  accepted := k.accepted.trans h.accepted
  reclaimed := k.reclaimed.trans h.reclaimed
  rejectedFull := k.rejectedFull.trans h.rejectedFull
  tail := k.tail.trans h.tail
  staged := k.staged.trans h.staged
  latch := k.latch.trans h.latch
  balanced hb := k.balanced (h.balanced hb)

end Moment.Calm

/-! ## One quiet action -/

namespace Device

/-- A quiet read changes nothing. -/
theorem read_of_isQuiet (d : Device) {offset : Word} {length : Nat} (hq : (Action.read offset length).isQuiet = true) :
    (d.read offset length).2 = d ∧ d.readEvents offset length = [] := by
  have hlooks : d.reclaims (decode offset length) = false := by
    unfold reclaims
    split
    · rename_i hdec
      simp [Action.isQuiet, hdec] at hq
    · rename_i hdec
      simp [Action.isQuiet, hdec] at hq
    · rfl
  refine ⟨?_, by rw [readEvents, if_neg (by simp [hlooks])]⟩
  unfold read
  split
  · rfl
  · rfl
  · rename_i register part hdec
    cases register
    case completeHead => simp [Action.isQuiet, hdec] at hq
    all_goals rfl
  · rfl

/-- A quiet write changes only the doorbell and the settings, and submits nothing. -/
theorem write_of_isQuiet (d : Device) {offset : Word} {bytes : List UInt8}
    (hq : (Action.write offset bytes).isQuiet = true) :
    (∃ doorbell batchFactor snapshot stagedSnapshotAddress, (d.write offset bytes).2 =
      { d with doorbell, batchFactor, snapshot, stagedSnapshotAddress }) ∧
    (d.writeEvents offset bytes = [] ∨ d.writeEvents offset bytes = [.rung]) := by
  have hnone : d.submission? offset bytes = none := by
    unfold submission?
    split
    · rename_i hdec
      simp [Action.isQuiet, hdec] at hq
    · rename_i hdec
      simp [Action.isQuiet, hdec] at hq
    · rfl
  refine ⟨?_, ?_⟩
  · have hsame : ∃ doorbell batchFactor snapshot stagedSnapshotAddress,
        d = { d with doorbell, batchFactor, snapshot, stagedSnapshotAddress } :=
      ⟨d.doorbell, d.batchFactor, d.snapshot, d.stagedSnapshotAddress, rfl⟩
    unfold write
    split
    · exact hsame
    · exact hsame
    · exact hsame
    · rename_i register part hdec
      cases register
      case readyTail => simp [Action.isQuiet, hdec] at hq
      case doorbell =>
        simp only [writePart, ringDoorbell]
        split
        · exact hsame
        · exact ⟨true, d.batchFactor, d.snapshot, d.stagedSnapshotAddress, rfl⟩
      case batchFactor => exact ⟨d.doorbell, _, d.snapshot, d.stagedSnapshotAddress, rfl⟩
      case snapshotSize => exact ⟨d.doorbell, d.batchFactor, _, d.stagedSnapshotAddress, rfl⟩
      case snapshotAddress =>
        cases part
        · exact ⟨d.doorbell, d.batchFactor, _, d.stagedSnapshotAddress, rfl⟩
        · exact ⟨d.doorbell, d.batchFactor, d.snapshot, _, rfl⟩
        · exact ⟨d.doorbell, d.batchFactor, _, none, rfl⟩
      all_goals exact hsame
  · rw [writeEvents, hnone]
    dsimp only
    split
    · exact Or.inr rfl
    · exact Or.inl rfl

end Device

namespace Machine

variable {μ : Type} [VirtineMemory μ]

/-- A quiet action is calm. -/
theorem calm_apply (m : Machine μ) (h : History) {a : Action} (hq : a.isQuiet = true) :
    Moment.Calm ⟨m.device, h⟩ ⟨(m.apply a).device, h ++ m.events a⟩ := by
  have hbalanced : m.device.Balanced h → (m.apply a).device.Balanced (h ++ m.events a) := balanced_apply a
  cases a with
  | read offset length =>
    obtain ⟨hsame, hevents⟩ := m.device.read_of_isQuiet hq
    simp only [apply, mapDevice, events, hsame, hevents, List.append_nil]
    exact .refl _
  | write offset bytes =>
    obtain ⟨⟨doorbell, batchFactor, snapshot, stagedSnapshotAddress, hwrite⟩, hevents⟩ :=
      m.device.write_of_isQuiet hq
    simp only [apply, mapDevice, events, hwrite] at hbalanced ⊢
    rcases hevents with he | he <;> rw [he] at hbalanced ⊢ <;>
      exact ⟨by simp, by simp, rfl, rfl, rfl, rfl, hbalanced⟩
  | signal =>
    have hring : ∃ doorbell, m.device.ringDoorbell = { m.device with doorbell } := by
      unfold Device.ringDoorbell
      split
      · exact ⟨m.device.doorbell, rfl⟩
      · exact ⟨true, rfl⟩
    obtain ⟨doorbell, hring⟩ := hring
    simp only [apply, mapDevice, events, hring] at hbalanced ⊢
    exact ⟨by simp, by simp, rfl, rfl, rfl, rfl, hbalanced⟩
  | work =>
    have hevents : accepted (m.events .work) = [] ∧ reclaimed (m.events .work) = [] := by
      simp only [events]
      split <;> exact ⟨rfl, rfl⟩
    obtain ⟨_, _, _, _, _, _, _, _, _, heq, htail, hrejected⟩ := m.workerStep_frame
    simp only [apply, heq] at hbalanced ⊢
    exact ⟨by simp [hevents.1], by simp [hevents.2], hrejected, htail, rfl, rfl, hbalanced⟩
  | _ => cases hq

end Machine

/-- What happens in the background is quiet. -/
theorem Background.isQuiet_action (b : Background) : b.action.isQuiet = true := by
  cases b with
  | work => rfl
  | signal => rfl
  | setBatchFactor value =>
    simp only [Background.action, Action.isQuiet, Word.length_bytes]
    decide
  | look register h =>
    change (Action.read register.address register.width).isQuiet = true
    cases register with
    | completeHead => exact absurd rfl h
    | _ => decide

/-! ## Quiet calls -/

/-- A program keeps a property of the world that it works in. -/
def Maintains {σ α : Type} (P : σ → Prop) (x : StateM σ α) : Prop := ∀ s, P s → P (x s).2

/-- Quiet accesses over a bus keep a property of the world. -/
structure Bus.KeepsQuiet {σ : Type} (bus : Bus σ) (P : σ → Prop) : Prop where
  read : ∀ offset buffer, (Action.read offset buffer.length).isQuiet = true → Maintains P (bus.read offset buffer)
  write : ∀ offset bytes, (Action.write offset bytes).isQuiet = true → Maintains P (bus.write offset bytes)
  signal : ∀ s, P s → P (bus.signal s)

namespace Maintains

variable {σ α β : Type} {P : σ → Prop}

theorem pure (a : α) : Maintains P (Pure.pure a : StateM σ α) := fun _ h => h

theorem bind {x : StateM σ α} {f : α → StateM σ β} (hx : Maintains P x) (hf : ∀ a, Maintains P (f a)) :
    Maintains P (x >>= f) := fun s h => hf _ _ (hx s h)

end Maintains

namespace Bus.KeepsQuiet

variable {σ β : Type} {bus : Bus σ} {P : σ → Prop}

/-- A quiet read of a half maintains what the bus keeps. -/
theorem readHalf (h : bus.KeepsQuiet P) {offset : Word} (hq : (Action.read offset 4).isQuiet = true) :
    Maintains P (bus.readHalf offset) :=
  (h.read offset (List.replicate 4 0) hq).bind fun _ => .pure _

theorem readWord (h : bus.KeepsQuiet P) {offset : Word} (hq : (Action.read offset 8).isQuiet = true) :
    Maintains P (bus.readWord offset) :=
  (h.read offset (List.replicate 8 0) hq).bind fun _ => .pure _

theorem readSplit (h : bus.KeepsQuiet P) {offset : Word} (hlow : (Action.read offset 4).isQuiet = true)
    (hhigh : (Action.read (offset + 4) 4).isQuiet = true) : Maintains P (bus.readSplit offset) :=
  (h.readHalf hlow).bind fun _ => (h.readHalf hhigh).bind fun _ => .pure _

/-- What falls between the accesses of a bus may keep the property too. -/
theorem interleaved (h : bus.KeepsQuiet P) {step : σ → β → σ} (hstep : ∀ s b, P s → P (step s b)) :
    (bus.interleaved step).KeepsQuiet fun s => P s.1 := by
  have hbatch : ∀ (s : σ) (batch : List β), P s → P (batch.foldl step s) := by
    intro s batch hs
    exact List.foldlRecOn batch step hs fun s hs b _ => hstep s b hs
  refine ⟨?_, ?_, ?_⟩
  · intro offset buffer hq s hs
    exact h.read offset buffer hq _ (hbatch s.1 _ hs)
  · intro offset bytes hq s hs
    exact h.write offset bytes hq _ (hbatch s.1 _ hs)
  · intro s hs
    exact h.signal _ (hbatch s.1 _ hs)

/-- A quiet call is made of quiet accesses. -/
theorem carryOut (h : bus.KeepsQuiet P) {call : Call} (hq : call.isQuiet = true) :
    Maintains P (call.carryOut bus) := by
  have hwrite : ∀ (register : Register) (value : Word), register ≠ .readyTail →
      (Action.write register.address value.bytes).isQuiet = true := by
    intro register value hne
    simp only [Action.isQuiet, Word.length_bytes]
    cases register with
    | readyTail => exact absurd rfl hne
    | _ => decide
  cases call with
  | submit => cases hq
  | reclaim => cases hq
  | ringDoorbell => exact Maintains.bind (fun s => h.signal s) fun _ => .pure _
  | command c =>
    refine Maintains.bind ?_ fun _ => .pure _
    cases c with
    | modifyBatchFactor value =>
      exact (h.write Register.batchFactor.address value.bytes (hwrite _ _ nofun)).bind fun _ => .pure _
    | getMaxNumVirtines => exact h.readSplit (by decide) (by decide)
    | ringDoorbell => exact Maintains.bind (fun s => h.signal s) fun _ => .pure _
    | setSnapshot address size =>
      have hlow : (Action.write Register.snapshotAddress.address address.low.bytes).isQuiet = true := by
        simp only [Action.isQuiet, HalfWord.length_bytes]
        decide
      have hhigh : (Action.write (Register.snapshotAddress.address + 4) address.high.bytes).isQuiet = true := by
        simp only [Action.isQuiet, HalfWord.length_bytes]
        decide
      exact (h.write Register.snapshotSize.address size.bytes (hwrite _ _ nofun)).bind fun _ =>
        ((h.write _ _ hlow).bind fun _ => (h.write _ _ hhigh).bind fun _ => .pure _).bind fun _ => .pure _
  | status =>
    refine Maintains.bind ?_ fun _ => .pure _
    refine (h.readWord (by decide)).bind fun _ => (h.readWord (by decide)).bind fun _ => ?_
    refine (h.readHalf (by decide)).bind fun _ => (h.readHalf (by decide)).bind fun _ => ?_
    refine (h.readWord (by decide)).bind fun _ => (h.readWord (by decide)).bind fun _ => ?_
    refine (h.readWord (by decide)).bind fun _ => (h.readWord (by decide)).bind fun _ => ?_
    exact (h.readWord (by decide)).bind fun _ => .pure _

end Bus.KeepsQuiet

namespace Chronicle

variable {μ : Type}

/-- From a moment on it has been calm. -/
structure CalmSince (p : Moment) (c : Chronicle μ) : Prop where
  now : p.Calm c.now
  passed : ∀ q ∈ c.passed, p.Calm q

/-- A chronicle leads calmly to another that goes on with it: it lists the moments of the first, and ends at its own present if
the first did. -/
structure Leads (c d : Chronicle μ) : Prop where
  calm : c.now.Calm d.now
  passed : c.passed <+: d.passed
  last : c.passed.getLast? = some c.now → d.passed.getLast? = some d.now

theorem Leads.refl (c : Chronicle μ) : c.Leads c := ⟨.refl c.now, List.prefix_refl _, id⟩

theorem Leads.trans {c d e : Chronicle μ} (h : c.Leads d) (k : d.Leads e) : c.Leads e :=
  ⟨h.calm.trans k.calm, h.passed.trans k.passed, fun hlast => k.last (h.last hlast)⟩

variable [VirtineMemory μ]

/-- A quiet action goes on being calm. -/
theorem calm_act (c : Chronicle μ) {p : Moment} (h : p.Calm c.now) {a : Action} (hq : a.isQuiet = true) :
    p.Calm (c.act a).now :=
  h.trans (c.machine.calm_apply c.history hq)

/-- The last moment after an action is the present one. -/
theorem last_act (c : Chronicle μ) (a : Action) : (c.act a).passed.getLast? = some (c.act a).now :=
  List.getLast?_concat

/-- A quiet action leads on calmly. -/
theorem Leads.act {c d : Chronicle μ} (h : c.Leads d) {a : Action} (hq : a.isQuiet = true) : c.Leads (d.act a) where
  calm := d.calm_act h.calm hq
  passed := h.passed.trans (List.prefix_append _ _)
  last _ := d.last_act a

/-- What happens between two accesses leads on calmly. -/
theorem leads_steps (c : Chronicle μ) (batch : List Background) : c.Leads (batch.foldl step c) :=
  List.foldlRecOn (motive := c.Leads) batch step (.refl c) fun _ h b _ => h.act b.isQuiet_action

/-- The moments before and after an action that is led up to and from are one after the other among those passed. -/
theorem infix_of_leads {c d : Chronicle μ} {a : Action} (hlast : c.passed.getLast? = some c.now)
    (h : (c.act a).Leads d) : [c.now, (c.act a).now] <:+: d.passed := by
  obtain ⟨before, hbefore⟩ := List.getLast?_eq_some_iff.1 hlast
  obtain ⟨after, hafter⟩ := h.passed
  refine ⟨before, after, ?_⟩
  rw [← hafter, act, hbefore]
  simp only [List.append_assoc, List.cons_append, List.nil_append]
  rfl

/-- A quiet action goes on calmly. -/
theorem CalmSince.act {p : Moment} {c : Chronicle μ} (h : CalmSince p c) {a : Action} (hq : a.isQuiet = true) :
    CalmSince p (c.act a) := by
  have hnow := c.calm_act h.now hq
  refine ⟨hnow, ?_⟩
  intro q hmem
  rcases List.mem_append.1 hmem with hmem | hmem
  · exact h.passed q hmem
  · rw [List.mem_singleton.1 hmem]
    exact hnow

/-- A quiet call is calm from beginning to end. -/
theorem calmSince_perform (c : Chronicle μ) {call : Call} (hq : call.isQuiet = true) (schedule : Schedule) :
    CalmSince c.now (c.perform call schedule).2 := by
  have hbus : (bus : Bus (Chronicle μ)).KeepsQuiet (CalmSince c.now) :=
    ⟨fun _ _ hq _ h => h.act hq, fun _ _ hq _ h => h.act hq, fun _ h => h.act rfl⟩
  refine (hbus.interleaved fun d b h => h.act b.isQuiet_action).carryOut hq ({ c with passed := [c.now] }, schedule) ?_
  refine ⟨.refl c.now, ?_⟩
  intro q hmem
  rw [List.mem_singleton.1 hmem]
  exact .refl c.now

end Chronicle

end VirtineCleaning

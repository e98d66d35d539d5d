import VirtineCleaning.Proofs.Device.History

/-!
# The steps of cleaning in a run

Whatever a run is made of, what it does to virtines it does in steps of cleaning: those asked for one by one, those of whole passes
and those of the worker. The trail of a run lists the machines that these steps start from, so a statement about every step of a
run is one about every machine of its trail.
-/

namespace VirtineCleaning.Machine

open History

variable {μ : Type} [VirtineMemory μ]

/-- The machines that the steps of a pass start from, the one that ends it included. -/
def passTrail (m : Machine μ) : List (Machine μ) :=
  m :: if m.cleanNext.1.continues then passTrail m.cleanNext.2 else []
termination_by m.device.ready.occupied
decreasing_by
  rename_i h
  have := occupied_of_continues m h
  omega

/-- The machines that the steps of cleaning of an action start from. -/
def stepsFrom (m : Machine μ) : Action → List (Machine μ)
  | .cleanNext => [m]
  | .processReadyQueue => (m.mapDevice Device.beginPass).passTrail
  | .work => if m.device.phase = .processing then [m] else []
  | _ => []

/-- The machines that the steps of cleaning of a run start from, in order. -/
def trail (m : Machine μ) : List Action → List (Machine μ)
  | [] => []
  | a :: rest => m.stepsFrom a ++ trail (m.apply a) rest

/-- The steps of a pass come out as its history says. -/
theorem map_passTrail (m : Machine μ) : m.passTrail.map (·.cleanNext.1) = m.passSteps := by
  fun_induction passTrail m with
  | case1 m ih =>
    rw [passSteps, List.map_cons]
    by_cases hgo : m.cleanNext.1.continues = true
    · rw [if_pos hgo, if_pos hgo, ih hgo]
    · rw [if_neg hgo, if_neg hgo, List.map_nil]

/-- The steps of an action come out as its events say. -/
theorem map_stepsFrom (m : Machine μ) (a : Action) :
    (m.stepsFrom a).map (·.cleanNext.1) = steps (m.events a) := by
  have hsteps : ∀ outcomes : List CleanStep, steps (outcomes.map .stepped) = outcomes := by
    intro outcomes
    induction outcomes with
    | nil => rfl
    | cons outcome rest ih =>
      rw [List.map_cons]
      exact congrArg (outcome :: ·) ih
  cases a with
  | read offset length =>
    simp only [stepsFrom, events, Device.readEvents, Device.dequeueEvents]
    split
    · split <;> rfl
    · rfl
  | write offset bytes =>
    simp only [stepsFrom, events, Device.writeEvents, Device.submitEvents]
    split
    · split
      · rfl
      · split <;> rfl
    · split <;> rfl
  | processReadyQueue => rw [stepsFrom, events, hsteps, map_passTrail]
  | work =>
    simp only [stepsFrom, events]
    split <;> rfl
  | _ => rfl

/-- The steps of a run come out as its history says. -/
theorem map_trail (m : Machine μ) (actions : List Action) :
    (m.trail actions).map (·.cleanNext.1) = steps (m.history actions) := by
  induction actions generalizing m with
  | nil => rfl
  | cons a rest ih => rw [trail, history, List.map_append, steps_append, map_stepsFrom, ih]

theorem trail_append (m : Machine μ) (actions more : List Action) :
    m.trail (actions ++ more) = m.trail actions ++ (m.run actions).trail more := by
  induction actions generalizing m with
  | nil => rfl
  | cons a rest ih =>
    rw [List.cons_append, trail, trail, ih, List.append_assoc]
    rfl

/-! ## What each action keeps, a run keeps -/

/-- What the operations of a device keep of a machine and of the steps of cleaning made so far. Passes and steps of the worker are
made of these operations: the worker moves its phase besides, to `stopping` only after a stop was requested and to `terminated` only
from there, and gives up the notifier as it ends. -/
structure Keeps (P : Machine μ → List (Machine μ) → Prop) : Prop where
  read : ∀ {m t} (offset : Word) (length : Nat), P m t → P (m.mapDevice fun d => (d.read offset length).2) t
  write : ∀ {m t} (offset : Word) (bytes : List UInt8), P m t → P (m.mapDevice fun d => (d.write offset bytes).2) t
  signal : ∀ {m t}, P m t → P (m.mapDevice Device.ringDoorbell) t
  requestStop : ∀ {m t}, P m t → P (m.mapDevice Device.requestStop) t
  beginPass : ∀ {m t}, P m t → P (m.mapDevice Device.beginPass) t
  cleanNext : ∀ {m t}, P m t → P m.cleanNext.2 (t ++ [m])
  endPass : ∀ {m t}, P m t → P (m.mapDevice Device.endPass) t
  movePhase : ∀ {m t} (phase : Phase), phase ≠ .terminated → (phase = .stopping → m.device.isStopping = true) → P m t →
    P (m.mapDevice ({ · with phase })) t
  close : ∀ {m t}, m.device.phase = .stopping → P m t →
    P (m.mapDevice ({ ·.closeNotifications with phase := .terminated })) t

namespace Keeps

variable {P : Machine μ → List (Machine μ) → Prop} {m : Machine μ} {t : List (Machine μ)}

/-- The loop of a pass follows its trail. -/
theorem cleanAll (h : Keeps P) (m : Machine μ) (report : Report) :
    ∀ t, P m t → P (m.cleanAll report).2 (t ++ m.passTrail) := by
  fun_induction Machine.cleanAll m report with
  | case1 m report next hgo ih =>
    intro t hm
    have hnext : P next.2 (t ++ [m]) := h.cleanNext hm
    rw [passTrail, if_pos hgo, List.append_cons]
    exact ih _ hnext
  | case2 m report next hhalt =>
    intro t hm
    rw [passTrail, if_neg hhalt]
    exact h.cleanNext hm

/-- A step of the worker is one of these operations, and a move of its phase. -/
theorem workerStep (h : Keeps P) (hm : P m t) : P m.workerStep (t ++ m.stepsFrom .work) := by
  have hidle : m.device.phase ≠ .processing → m.stepsFrom .work = [] := fun hp => if_neg hp
  have hcase := m.workerStep_case
  generalize m.workerStep = next at hcase
  cases hcase with
  | stop hp hs =>
    rw [hidle (by simp [hp]), List.append_nil]
    exact h.movePhase .stopping nofun (fun _ => hs) hm
  | start hp =>
    rw [hidle (by simp [hp]), List.append_nil]
    exact h.movePhase .processing nofun nofun (h.beginPass hm)
  | go hp =>
    rw [stepsFrom, if_pos hp]
    exact h.cleanNext hm
  | halt hp hhalt =>
    rw [stepsFrom, if_pos hp]
    refine h.movePhase (phaseAfter m.cleanNext.1) ?_ ?_ (h.endPass (h.cleanNext hm))
    · cases m.cleanNext.1 <;> exact nofun
    · -- only a step that saw the stop leads there, and it leaves the machine as it is
      have hstep := m.cleanNext_case
      generalize m.cleanNext = next at hstep
      intro hphase
      cases hstep with
      | stopped hs => exact hs
      | _ => cases hphase
  | close hp =>
    rw [hidle (by simp [hp]), List.append_nil]
    exact h.close hp hm
  | rest hw =>
    have hp : m.device.phase ≠ .processing := by
      intro hp
      simp [Device.hasWork, hp] at hw
    rw [hidle hp, List.append_nil]
    exact hm

/-- So every action keeps it. -/
theorem apply (h : Keeps P) (a : Action) (hm : P m t) : P (m.apply a) (t ++ m.stepsFrom a) := by
  have hquiet : m.stepsFrom a = [] → P (m.apply a) t → P (m.apply a) (t ++ m.stepsFrom a) := by
    intro hnone hkept
    rw [hnone, List.append_nil]
    exact hkept
  cases a with
  | read offset length => exact hquiet rfl (h.read offset length hm)
  | write offset bytes => exact hquiet rfl (h.write offset bytes hm)
  | signal => exact hquiet rfl (h.signal hm)
  | requestStop => exact hquiet rfl (h.requestStop hm)
  | beginPass => exact hquiet rfl (h.beginPass hm)
  | cleanNext => exact h.cleanNext hm
  | endPass => exact hquiet rfl (h.endPass hm)
  | processReadyQueue => exact h.endPass (h.cleanAll _ {} _ (h.beginPass hm))
  | work => exact h.workerStep hm

/-- And so does every run. -/
theorem run (h : Keeps P) (actions : List Action) (hm : P m t) : P (m.run actions) (t ++ m.trail actions) := by
  induction actions generalizing m t with
  | nil =>
    rw [trail, List.append_nil]
    exact hm
  | cons a rest ih =>
    rw [trail, ← List.append_assoc]
    exact ih (h.apply a hm)

end Keeps

/-! ## What only writes change -/

/-- The batch factor and the snapshot, which the host sets. -/
def settings (m : Machine μ) : Word × Snapshot := (m.device.batchFactor, m.device.snapshot)

/-- Cleaning leaves the settings as they are. -/
theorem settings_cleanNext (m : Machine μ) : m.cleanNext.2.settings = m.settings := by
  obtain ⟨_, _, _, _, _, _, heq, -⟩ := m.cleanNext_frame
  rw [settings, heq]
  rfl

theorem settings_cleanAll (m : Machine μ) (report : Report) : (m.cleanAll report).2.settings = m.settings := by
  fun_induction cleanAll m report with
  | case1 m report next _ ih => exact ih.trans m.settings_cleanNext
  | case2 m report next _ => exact m.settings_cleanNext

/-- So every step of a pass finds them as the first did. -/
theorem settings_of_mem_passTrail {m n : Machine μ} (hn : n ∈ m.passTrail) : n.settings = m.settings := by
  fun_induction passTrail m with
  | case1 m ih =>
    rcases List.mem_cons.1 hn with rfl | hn
    · rfl
    · by_cases hgo : m.cleanNext.1.continues = true
      · rw [if_pos hgo] at hn
        exact (ih hgo hn).trans m.settings_cleanNext
      · rw [if_neg hgo] at hn
        cases hn

/-- The steps of an action are made with the settings that it begins with. -/
theorem settings_of_mem_stepsFrom {m n : Machine μ} {a : Action} (hn : n ∈ m.stepsFrom a) : n.settings = m.settings := by
  cases a with
  | cleanNext =>
    rw [List.mem_singleton.1 hn]
  | processReadyQueue => exact settings_of_mem_passTrail (m := m.mapDevice Device.beginPass) hn
  | work =>
    simp only [stepsFrom] at hn
    split at hn
    · rw [List.mem_singleton.1 hn]
    · cases hn
  | _ => cases hn

/-- So the steps of a run are made with the settings that some part of it leads to. -/
theorem settings_of_mem_trail {m n : Machine μ} {actions : List Action} (hn : n ∈ m.trail actions) :
    ∃ before, before <+: actions ∧ n.settings = (m.run before).settings := by
  induction actions generalizing m with
  | nil => cases hn
  | cons a rest ih =>
    rcases List.mem_append.1 hn with hn | hn
    · exact ⟨[], List.nil_prefix, settings_of_mem_stepsFrom hn⟩
    · obtain ⟨before, hbefore, heq⟩ := ih hn
      exact ⟨a :: before, (List.prefix_cons_inj a).2 hbefore, heq⟩

/-- No action but a write changes the settings. -/
theorem settings_apply (m : Machine μ) {a : Action} (ha : ∀ offset bytes, a ≠ .write offset bytes) :
    (m.apply a).settings = m.settings := by
  cases a with
  | read offset length =>
    have hcase := m.device.read_case offset length
    simp only [apply, mapDevice, settings]
    generalize (m.device.read offset length).2 = next, m.device.readEvents offset length = events at hcase
    cases hcase with
    | reclaims =>
      have hcase := m.device.dequeue_case
      generalize m.device.dequeue = next, m.device.dequeueEvents = events at hcase
      cases hcase <;> rfl
    | looks => rfl
  | write offset bytes => exact absurd rfl (ha offset bytes)
  | signal =>
    simp only [apply, mapDevice, settings, Device.ringDoorbell]
    split <;> rfl
  | cleanNext => exact m.settings_cleanNext
  | processReadyQueue => exact settings_cleanAll _ _
  | work =>
    obtain ⟨_, _, _, _, _, _, _, _, _, heq, -⟩ := m.workerStep_frame
    rw [settings, apply, heq]
    rfl
  | _ => rfl

end VirtineCleaning.Machine

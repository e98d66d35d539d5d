import VirtineCleaning.Proofs.Device.Ledger
import VirtineCleaning.Proofs.Device.Notices

/-!
# The machines that can come about

Whatever befalls a machine after it was made, it stays `Reachable`: actions of any kind, uses of the receiver of its line, and
writes to its memory by whatever else runs there. Its device is balanced with some history, so its queues hold lists.
-/

namespace VirtineCleaning.Machine

variable {μ : Type} [VirtineMemory μ]

/-- The machines that a new one becomes. -/
inductive Reachable : Machine μ → Prop where
  /-- A device is made with the notifier of its line. -/
  | fresh (memory : μ) (batchFactor : Word) (line : Line) (hline : line.notifier ≠ none) :
      Reachable (fresh memory batchFactor line)
  | act {m : Machine μ} (a : Action) (hm : Reachable m) : Reachable (m.apply a)
  /-- The receiver is used. -/
  | use {m : Machine μ} (u : ReceiverUse) (hm : Reachable m) :
      Reachable (m.mapDevice fun d => { d with line := (d.line.use u).2 })
  /-- The memory is written from elsewhere. -/
  | store {m : Machine μ} (memory : μ) (hm : Reachable m) : Reachable ⟨m.device, memory⟩

namespace Reachable

variable {m : Machine μ}

theorem run (hm : m.Reachable) (actions : List Action) : (m.run actions).Reachable := by
  induction actions generalizing m with
  | nil => exact hm
  | cons a rest ih => exact ih (hm.act a)

/-- The queues of a machine conserve what came to them, whatever befalls it. -/
theorem balanced (hm : m.Reachable) : ∃ h, m.device.Balanced h := by
  induction hm with
  | fresh memory batchFactor line _ => exact ⟨[], Device.Balanced.fresh batchFactor line⟩
  | @act m a _ ih =>
    obtain ⟨h, hb⟩ := ih
    exact ⟨h ++ m.events a, balanced_apply a hb⟩
  | use u _ ih =>
    obtain ⟨h, hb⟩ := ih
    exact ⟨h, { hb with }⟩
  | store memory _ ih => exact ih

/-- What the operations of a device keep, and the uses of its receiver, holds of every machine, whatever becomes of its memory. -/
theorem of_keeps {P : Device → Prop} (hkeeps : Keeps fun (m : Machine μ) _ => P m.device)
    (hfresh : ∀ batchFactor line, line.notifier ≠ none → P { batchFactor, line })
    (huse : ∀ d u, P d → P { d with line := (d.line.use u).2 }) (hm : m.Reachable) : P m.device := by
  induction hm with
  | fresh memory batchFactor line hline => exact hfresh batchFactor line hline
  | act a _ ih => exact hkeeps.apply (t := []) a ih
  | use u _ ih => exact huse _ u ih
  | store memory _ ih => exact ih

end Reachable

end VirtineCleaning.Machine

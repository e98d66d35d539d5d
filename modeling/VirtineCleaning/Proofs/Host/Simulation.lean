import VirtineCleaning.Proofs.Host.Interleaving

/-!
# The host over two buses

What a host does, it does through a bus and nothing else. So if the accesses of two buses come out alike in related worlds and keep
them related, whatever the host does over the one comes out as over the other (`Bus.Matches.carryOut`).
-/

namespace VirtineCleaning

/-- Everything that a host can do with a device: transfers of ranges, requests by number, and calls. -/
inductive HostCall where
  | readAt (offset : Word) (buffer : List UInt8)
  | writeAt (offset : Word) (bytes : List UInt8)
  | request (number : HalfWord) (arguments : List Word)
  | call (c : Call)

/-- What the host is answered. -/
inductive HostReply where
  | read (count : Nat) (buffer : List UInt8)
  | written (count : Nat)
  | requested (answer : Except RequestError Word)
  | replied (reply : Reply)

/-- Carries out what the host does over a bus. -/
def HostCall.carryOut {σ : Type} (bus : Bus σ) : HostCall → StateM σ HostReply
  | .readAt offset buffer => do
    let (count, buffer) ← Host.readAt bus offset buffer
    return .read count buffer
  | .writeAt offset bytes => do return .written (← Host.writeAt bus offset bytes)
  | .request number arguments => do return .requested (← Host.request bus number arguments)
  | .call c => do return .replied (← c.carryOut bus)

/-- In related worlds two programs answer the same, and leave related worlds. -/
def Alike {σ τ α : Type} (R : σ → τ → Prop) (x : StateM σ α) (y : StateM τ α) : Prop :=
  ∀ s t, R s t → (x s).1 = (y t).1 ∧ R (x s).2 (y t).2

/-- In related worlds the accesses over two buses come out alike. -/
structure Bus.Matches {σ τ : Type} (R : σ → τ → Prop) (b : Bus σ) (c : Bus τ) : Prop where
  read : ∀ offset buffer, Alike R (b.read offset buffer) (c.read offset buffer)
  write : ∀ offset bytes, Alike R (b.write offset bytes) (c.write offset bytes)
  signal : ∀ s t, R s t → R (b.signal s) (c.signal t)

namespace Alike

variable {σ τ α β : Type} {R : σ → τ → Prop}

theorem pure (a : α) : Alike R (Pure.pure a : StateM σ α) (Pure.pure a) := fun _ _ h => ⟨rfl, h⟩

theorem bind {x : StateM σ α} {y : StateM τ α} {f : α → StateM σ β} {g : α → StateM τ β} (hx : Alike R x y)
    (hf : ∀ a, Alike R (f a) (g a)) : Alike R (x >>= f) (y >>= g) := by
  intro s t h
  obtain ⟨hanswer, hworld⟩ := hx s t h
  have hnext := hf (x s).1 _ _ hworld
  rw [hanswer] at hnext
  change (f (x s).1 (x s).2).1 = (g (y t).1 (y t).2).1 ∧ R (f (x s).1 (x s).2).2 (g (y t).1 (y t).2).2
  rw [hanswer]
  exact hnext

end Alike

namespace Bus.Matches

variable {σ τ : Type} {R : σ → τ → Prop} {b : Bus σ} {c : Bus τ}

/-! ## Words and halves -/

theorem readHalf (h : b.Matches R c) (offset : Word) : Alike R (b.readHalf offset) (c.readHalf offset) :=
  (h.read offset _).bind fun _ => .pure _

theorem readWord (h : b.Matches R c) (offset : Word) : Alike R (b.readWord offset) (c.readWord offset) :=
  (h.read offset _).bind fun _ => .pure _

theorem readSplit (h : b.Matches R c) (offset : Word) : Alike R (b.readSplit offset) (c.readSplit offset) :=
  (h.readHalf offset).bind fun _ => (h.readHalf (offset + 4)).bind fun _ => .pure _

theorem writeSplit (h : b.Matches R c) (offset value : Word) :
    Alike R (b.writeSplit offset value) (c.writeSplit offset value) :=
  (h.write offset _).bind fun _ => (h.write (offset + 4) _).bind fun _ => .pure _

theorem modify (h : b.Matches R c) : Alike R (modify b.signal) (modify c.signal) :=
  fun s t hst => ⟨rfl, h.signal s t hst⟩

/-! ## Transfers of ranges -/

/-- So they fill buffers alike. -/
theorem readWords (h : b.Matches R c) (offset : Word) (words : Nat) (buffer : List UInt8) :
    Alike R (Host.readWords b offset words buffer) (Host.readWords c offset words buffer) := by
  induction words generalizing offset buffer with
  | zero => exact .pure _
  | succ words ih =>
    refine (h.read offset _).bind ?_
    intro moved
    obtain ⟨count, bytes⟩ := moved
    dsimp only
    by_cases hwhole : count = accessAlign
    · rw [if_pos hwhole, if_pos hwhole]
      exact (ih _ _).bind fun _ => .pure _
    · rw [if_neg hwhole, if_neg hwhole]
      exact .pure _

theorem writeWords (h : b.Matches R c) (offset : Word) (words : Nat) (bytes : List UInt8) :
    Alike R (Host.writeWords b offset words bytes) (Host.writeWords c offset words bytes) := by
  induction words generalizing offset bytes with
  | zero => exact .pure _
  | succ words ih =>
    refine (h.write offset _).bind ?_
    intro count
    by_cases hwhole : count = accessAlign
    · rw [if_pos hwhole, if_pos hwhole]
      exact (ih _ _).bind fun _ => .pure _
    · rw [if_neg hwhole, if_neg hwhole]
      exact .pure _

theorem readAt (h : b.Matches R c) (offset : Word) (buffer : List UInt8) :
    Alike R (Host.readAt b offset buffer) (Host.readAt c offset buffer) := by
  unfold Host.readAt
  cases Host.transferWords offset buffer.length with
  | none => exact .pure _
  | some words => exact h.readWords offset words buffer

theorem writeAt (h : b.Matches R c) (offset : Word) (bytes : List UInt8) :
    Alike R (Host.writeAt b offset bytes) (Host.writeAt c offset bytes) := by
  unfold Host.writeAt
  cases Host.transferWords offset bytes.length with
  | none => exact .pure _
  | some words => exact h.writeWords offset words bytes

/-! ## Commands and calls -/

theorem command (h : b.Matches R c) (command : Command) : Alike R (Host.command b command) (Host.command c command) := by
  cases command with
  | modifyBatchFactor value => exact (h.write _ _).bind fun _ => .pure _
  | getMaxNumVirtines => exact h.readSplit _
  | ringDoorbell => exact h.modify.bind fun _ => .pure _
  | setSnapshot address size => exact (h.write _ _).bind fun _ => (h.writeSplit _ _).bind fun _ => .pure _

theorem ringDoorbell (h : b.Matches R c) : Alike R (Host.ringDoorbell b) (Host.ringDoorbell c) :=
  (h.command .ringDoorbell).bind fun _ => .pure _

theorem request (h : b.Matches R c) (number : HalfWord) (arguments : List Word) :
    Alike R (Host.request b number arguments) (Host.request c number arguments) := by
  unfold Host.request
  cases Command.ofRequest number arguments with
  | error e => exact .pure _
  | ok command => exact (h.command command).bind fun _ => .pure _

/-- Submissions are answered alike. -/
theorem submit (h : b.Matches R c) (address : Word) : Alike R (Host.submit b address) (Host.submit c address) := by
  unfold Host.submit
  by_cases hzero : address = 0
  · rw [if_pos hzero, if_pos hzero]
    exact .pure _
  · rw [if_neg hzero, if_neg hzero]
    exact (h.readWord _).bind fun _ => (h.writeSplit _ _).bind fun _ => (h.readWord _).bind fun _ => .pure _

theorem reclaim (h : b.Matches R c) : Alike R (Host.reclaim b) (Host.reclaim c) :=
  (h.readSplit _).bind fun _ => .pure _

theorem status (h : b.Matches R c) : Alike R (Host.status b) (Host.status c) := by
  refine (h.readWord _).bind fun _ => (h.readWord _).bind fun _ => ?_
  refine (h.readHalf _).bind fun _ => (h.readHalf _).bind fun _ => ?_
  refine (h.readWord _).bind fun _ => (h.readWord _).bind fun _ => ?_
  refine (h.readWord _).bind fun _ => (h.readWord _).bind fun _ => ?_
  exact (h.readWord _).bind fun _ => .pure _

/-- So every call is answered alike. -/
theorem call (h : b.Matches R c) (call : Call) : Alike R (call.carryOut b) (call.carryOut c) := by
  cases call with
  | submit address => exact (h.submit address).bind fun _ => .pure _
  | reclaim => exact h.reclaim.bind fun _ => .pure _
  | ringDoorbell => exact h.ringDoorbell.bind fun _ => .pure _
  | command command => exact (h.command command).bind fun _ => .pure _
  | status => exact h.status.bind fun _ => .pure _

/-- Whatever a host does over two matching buses comes out alike. -/
theorem carryOut (h : b.Matches R c) (call : HostCall) : Alike R (call.carryOut b) (call.carryOut c) := by
  cases call with
  | readAt offset buffer => exact (h.readAt offset buffer).bind fun _ => .pure _
  | writeAt offset bytes => exact (h.writeAt offset bytes).bind fun _ => .pure _
  | request number arguments => exact (h.request number arguments).bind fun _ => .pure _
  | call call => exact (h.call call).bind fun _ => .pure _

end Bus.Matches

/-- What every access over a bus keeps of the world, everything that a host does keeps. -/
theorem Bus.keeps_carryOut {σ : Type} {bus : Bus σ} {P : σ → Prop}
    (read : ∀ offset buffer s, P s → P (bus.read offset buffer s).2)
    (write : ∀ offset bytes s, P s → P (bus.write offset bytes s).2) (signal : ∀ s, P s → P (bus.signal s))
    (call : HostCall) {s : σ} (hs : P s) : P (call.carryOut bus s).2 := by
  -- the bus matches itself, as far as the worlds that have the property go
  have hself : bus.Matches (fun s t => s = t ∧ P s) bus := by
    refine ⟨?_, ?_, ?_⟩
    · rintro offset buffer s _ ⟨rfl, hs⟩
      exact ⟨rfl, rfl, read offset buffer s hs⟩
    · rintro offset bytes s _ ⟨rfl, hs⟩
      exact ⟨rfl, rfl, write offset bytes s hs⟩
    · rintro s _ ⟨rfl, hs⟩
      exact ⟨rfl, signal s hs⟩
  exact (hself.carryOut call s s ⟨rfl, hs⟩).2.2

end VirtineCleaning

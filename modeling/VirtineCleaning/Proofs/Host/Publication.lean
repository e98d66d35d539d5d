import VirtineCleaning.Proofs.Device.Cells
import VirtineCleaning.Proofs.Device.Halves
import VirtineCleaning.Proofs.Device.Restoration
import VirtineCleaning.Proofs.Host.Interleaving

/-!
# How commands publish their settings

A command sets the batch factor by one access to the whole register, and the snapshot by three: its size as a whole, and then its
address in halves, of which the high one takes effect with the low one that was staged. So the worker, which may clean between any
two of these accesses, sees every one of the three settings as it was before or as it is after the command, and never a new address
with an old size (`publication_of_command`). What was staged before does not matter, and nothing is left staged.
-/

namespace VirtineCleaning

open ByteStore (Copied)

/-- The settings that a command leads to. -/
def Command.settings (old : Word × Snapshot) : Command → Word × Snapshot
  | .modifyBatchFactor value => (value, old.2)
  | .setSnapshot address size => (old.1, ⟨address, size⟩)
  | .getMaxNumVirtines | .ringDoorbell => old

/-- Each of the settings is an old or a new one, and the address of the snapshot is new only where its size is. -/
structure Published (old new now : Word × Snapshot) : Prop where
  batchFactor : now.1 = old.1 ∨ now.1 = new.1
  size : now.2.size = old.2.size ∨ now.2.size = new.2.size
  address : now.2.address = old.2.address ∨ now.2.address = new.2.address ∧ now.2.size = new.2.size

namespace Published

variable {old new now : Word × Snapshot}

theorem refl (old new : Word × Snapshot) : Published old new old := ⟨Or.inl rfl, Or.inl rfl, Or.inl rfl⟩

theorem last (old new : Word × Snapshot) : Published old new new := ⟨Or.inr rfl, Or.inr rfl, Or.inr ⟨rfl, rfl⟩⟩

/-- The snapshot is the old one, the old one with the new size, or the new one. -/
theorem snapshot_mem (h : Published old new now) :
    now.2 ∈ [old.2, { old.2 with size := new.2.size }, new.2] := by
  obtain ⟨-, hsize, haddress⟩ := h
  obtain ⟨_, ⟨_, _⟩⟩ := old
  obtain ⟨_, ⟨_, _⟩⟩ := new
  obtain ⟨_, ⟨_, _⟩⟩ := now
  simp only [List.mem_cons, Snapshot.mk.injEq, List.not_mem_nil, or_false] at hsize haddress ⊢
  rcases haddress with haddress | ⟨haddress, hnew⟩
  · rcases hsize with hsize | hsize
    · exact Or.inl ⟨haddress, hsize⟩
    · exact Or.inr (Or.inl ⟨haddress, hsize⟩)
  · exact Or.inr (Or.inr ⟨haddress, hnew⟩)

end Published

namespace Machine

variable {μ : Type} [VirtineMemory μ]

/-! ## What writes do to the settings -/

/-- A write of a whole register that is written in place sets it. -/
theorem settings_write_cell (m : Machine μ) (w : Word) (r : CellRegister) :
    (m.apply (.write r.address w.bytes)).settings = (m.mapDevice fun d => d.setCell w r).settings := by
  simp only [apply, mapDevice, Device.write_cell]

/-- A write of the low half of the snapshot's address stages it, and sets nothing. -/
theorem settings_write_address_low (m : Machine μ) (half : HalfWord) :
    let n := m.apply (.write Register.snapshotAddress.address half.bytes)
    n.settings = m.settings ∧ n.device.stagedSnapshotAddress = some half := by
  have hwrite : (m.device.write Register.snapshotAddress.address half.bytes).2 = m.device.stage (some half) .snapshotAddress :=
    m.device.write_low half .snapshotAddress
  simp only [settings, apply, mapDevice, hwrite]
  exact ⟨rfl, rfl⟩

/-- A write of the high half sets the address of both, and nothing is staged after it. -/
theorem settings_write_address_high {m : Machine μ} {w : Word} (h : m.device.stagedSnapshotAddress = some w.low) :
    let n := m.apply (.write (Register.snapshotAddress.address + 4) w.high.bytes)
    n.settings = (m.settings.1, { m.settings.2 with address := w }) ∧ n.device.stagedSnapshotAddress = none := by
  have hwrite : (m.device.write (Register.snapshotAddress.address + 4) w.high.bytes).2 =
      (m.device.commit w .snapshotAddress).stage none .snapshotAddress := by
    have hcommit := m.device.write_high w.high .snapshotAddress
    have hstaged : m.device.staged .snapshotAddress = some w.low := h
    rw [hstaged, Option.getD_some, Word.join_high_low] at hcommit
    exact hcommit
  simp only [settings, apply, mapDevice, hwrite]
  exact ⟨rfl, rfl⟩

/-! ## The actions of a call -/

/-- A machine and the actions that were applied to it. -/
abbrev Journal (μ : Type) := Machine μ × List Action

/-- One more action. -/
def Journal.act (j : Journal μ) (a : Action) : Journal μ := (j.1.apply a, j.2 ++ [a])

/-- The window of a machine, accesses to which are written down as actions. -/
def journal : Bus (Journal μ) where
  read offset buffer j := ((window.read offset buffer j.1).1, Journal.act j (.read offset buffer.length))
  write offset bytes j := ((window.write offset bytes j.1).1, Journal.act j (.write offset bytes))
  signal j := Journal.act j .signal
  length_read offset buffer j := window.length_read offset buffer j.1

/-- Steps of the worker, one for each unit. -/
def Journal.work (j : Journal μ) (batch : List Unit) : Journal μ := batch.foldl (fun j _ => j.act .work) j

/-- The same window beside a worker, which makes a batch of steps before each access. -/
def beside : Bus (Journal μ × List (List Unit)) := journal.interleaved fun j _ => j.act .work

/-- What a worker does leaves the settings and what is staged. -/
theorem settings_work (j : Journal μ) (batch : List Unit) :
    (j.work batch).1.settings = j.1.settings ∧
      (j.work batch).1.device.stagedSnapshotAddress = j.1.device.stagedSnapshotAddress := by
  induction batch generalizing j with
  | nil => exact ⟨rfl, rfl⟩
  | cons _ rest ih =>
    obtain ⟨hsettings, hstaged⟩ := ih (j.act .work)
    have hstage : (j.1.apply .work).device.staged .snapshotAddress = j.1.device.staged .snapshotAddress :=
      staged_apply j.1 rfl
    exact ⟨hsettings.trans (j.1.settings_apply nofun), hstaged.trans hstage⟩

/-- The machine was run by the actions of the journal, and after each of them its settings have a property. -/
structure Course (m : Machine μ) (P : Word × Snapshot → Prop) (j : Journal μ) : Prop where
  run_eq : j.1 = m.run j.2
  settings : ∀ before, before <+: j.2 → P (m.run before).settings

namespace Course

variable {m : Machine μ} {P : Word × Snapshot → Prop} {j : Journal μ}

theorem start (h : P m.settings) : Course m P (m, []) where
  run_eq := rfl
  settings before hbefore := by
    rw [List.prefix_nil.1 hbefore]
    exact h

/-- The settings have the property throughout one more action if they have it after that. -/
theorem act (h : Course m P j) {a : Action} (ha : P (j.1.apply a).settings) : Course m P (j.act a) := by
  have hrun : m.run (j.2 ++ [a]) = j.1.apply a := by rw [run_concat, h.run_eq]
  refine ⟨hrun.symm, ?_⟩
  intro before hbefore
  rcases List.prefix_concat_iff.1 hbefore with rfl | hbefore
  · rw [hrun]
    exact ha
  · exact h.settings before hbefore

/-- An action that does not write leaves the settings. -/
theorem keep (h : Course m P j) {a : Action} (ha : ∀ offset bytes, a ≠ .write offset bytes) : Course m P (j.act a) := by
  refine h.act ?_
  rw [j.1.settings_apply ha, h.run_eq]
  exact h.settings j.2 (List.prefix_refl _)

/-- So does what a worker does. -/
theorem work (h : Course m P j) (batch : List Unit) : Course m P (j.work batch) :=
  List.foldlRecOn (motive := Course m P) batch _ h fun _ h _ _ => h.keep nofun

end Course

/-- The accesses of a command, each with what the worker does before it. -/
def Journal.command (j : Journal μ) (first second third : List Unit) : Command → Journal μ
  | .modifyBatchFactor value => (j.work first).act (.write Register.batchFactor.address value.bytes)
  | .getMaxNumVirtines =>
    (((j.work first).act (.read Register.maxVirtines.address 4)).work second).act (.read (Register.maxVirtines.address + 4) 4)
  | .ringDoorbell => (j.work first).act .signal
  | .setSnapshot address size =>
    (((((j.work first).act (.write Register.snapshotSize.address size.bytes)).work second).act
      (.write Register.snapshotAddress.address address.low.bytes)).work third).act
        (.write (Register.snapshotAddress.address + 4) address.high.bytes)

/-- A command beside a worker is a journal of its accesses. -/
theorem command_beside (j : Journal μ) (schedule : List (List Unit)) (command : Command) :
    (Host.command beside command (j, schedule)).2.1 =
      j.command (schedule.headD []) (schedule.tail.headD []) (schedule.tail.tail.headD []) command := by
  cases command with
  | getMaxNumVirtines =>
    change ((((j.work (schedule.headD [])).act (.read Register.maxVirtines.address (List.replicate 4 (0 : UInt8)).length)).work
      (schedule.tail.headD [])).act (.read (Register.maxVirtines.address + 4) (List.replicate 4 (0 : UInt8)).length)) = _
    rw [List.length_replicate]
    rfl
  | _ => rfl

/-- A command takes its course among published settings, and ends with its own. -/
theorem course_of_command (m : Machine μ) (first second third : List Unit) (command : Command) :
    let j := Journal.command (m, []) first second third command
    Course m (Published m.settings (command.settings m.settings)) j ∧ j.1.settings = command.settings m.settings ∧
      ∀ address size, command = .setSnapshot address size → j.1.device.stagedSnapshotAddress = none := by
  have hstart : Course m (Published m.settings (command.settings m.settings)) (Journal.work (m, []) first) :=
    (Course.start (.refl _ _)).work first
  obtain ⟨hlead, -⟩ := settings_work (m, []) first
  cases command with
  | modifyBatchFactor value =>
    have hset : ((Journal.work (m, []) first).1.apply (.write Register.batchFactor.address value.bytes)).settings =
        (value, m.settings.2) := by
      rw [← hlead]
      exact settings_write_cell _ value .batchFactor
    refine ⟨hstart.act ?_, hset, nofun⟩
    rw [hset]
    exact .last _ _
  | getMaxNumVirtines =>
    have hlow : ∀ offset bytes, Action.read Register.maxVirtines.address 4 ≠ .write offset bytes := nofun
    have hhigh : ∀ offset bytes, Action.read (Register.maxVirtines.address + 4) 4 ≠ .write offset bytes := nofun
    refine ⟨((hstart.keep hlow).work second).keep hhigh, ?_, nofun⟩
    exact (settings_apply _ hhigh).trans ((settings_work _ second).1.trans ((settings_apply _ hlow).trans hlead))
  | ringDoorbell =>
    have hsignal : ∀ offset bytes, Action.signal ≠ .write offset bytes := nofun
    exact ⟨hstart.keep hsignal, (settings_apply _ hsignal).trans hlead, nofun⟩
  | setSnapshot address size =>
    -- the size is new from the first access on, the low half is staged by the second, and the third commits the address
    let published := Published m.settings (m.settings.1, ⟨address, size⟩)
    let sized := (Journal.work (m, []) first).act (.write Register.snapshotSize.address size.bytes)
    let staged := (sized.work second).act (.write Register.snapshotAddress.address address.low.bytes)
    have hsized : sized.1.settings = (m.settings.1, { m.settings.2 with size }) := by
      rw [← hlead]
      exact settings_write_cell _ size .snapshotSize
    have hsizedCourse : Course m published sized := by
      refine hstart.act ?_
      change published sized.1.settings
      rw [hsized]
      exact ⟨Or.inl rfl, Or.inr rfl, Or.inl rfl⟩
    obtain ⟨hlow, hstaged⟩ := settings_write_address_low (sized.work second).1 address.low
    have hlow : staged.1.settings = sized.1.settings := hlow.trans (settings_work sized second).1
    have hstagedCourse : Course m published staged := by
      refine (hsizedCourse.work second).act ?_
      change published staged.1.settings
      rw [hlow, hsized]
      exact ⟨Or.inl rfl, Or.inr rfl, Or.inl rfl⟩
    obtain ⟨hkept, hstill⟩ := settings_work staged third
    obtain ⟨hset, hnone⟩ := settings_write_address_high (hstill.trans hstaged)
    rw [hkept, hlow, hsized] at hset
    refine ⟨(hstagedCourse.work third).act ?_, hset, fun _ _ _ => hnone⟩
    rw [hset]
    exact .last _ _

variable [LawfulMemory μ]

/-- A command, with any steps of the worker before each of its accesses, comes to actions of the machine. After each of them every
setting is an old or a new one, and the address of the snapshot is new only where its size is. So whatever the worker cleans in the
meantime, it restores from the old snapshot, from the old address with the new size, or from the new one. In the end the settings
are those of the command, which leaves the others, and no half of an address is staged, whatever was staged before. -/
theorem publication_of_command (m : Machine μ) (command : Command) (schedule : List (List Unit)) :
    let j := (Host.command beside command ((m, []), schedule)).2.1
    let new := command.settings m.settings
    j.1 = m.run j.2 ∧
      (∀ before, before <+: j.2 → Published m.settings new (m.run before).settings) ∧
      (∀ n ∈ m.trail j.2, ∀ a, n.cleanNext.1 = .cleaned a →
        ∃ snapshot ∈ [m.device.snapshot, { m.device.snapshot with size := new.2.size }, new.2],
          Copied n.memory n.cleanNext.2.memory snapshot.address.toNat a.word.toNat snapshot.size.toNat) ∧
      j.1.settings = new ∧
      ∀ address size, command = .setSnapshot address size → j.1.device.stagedSnapshotAddress = none := by
  intro j new
  have hj : j = Journal.command (m, []) _ _ _ command := command_beside (m, []) schedule command
  obtain ⟨hcourse, hlast, hnone⟩ := m.course_of_command (schedule.headD []) (schedule.tail.headD [])
    (schedule.tail.tail.headD []) command
  rw [← hj] at hcourse hlast hnone
  refine ⟨hcourse.run_eq, hcourse.settings, ?_, hlast, hnone⟩
  intro n hn a hcleaned
  obtain ⟨before, hbefore, hsettings⟩ := settings_of_mem_trail hn
  have hpublished := hcourse.settings before hbefore
  rw [← hsettings] at hpublished
  exact ⟨n.device.snapshot, hpublished.snapshot_mem, copied_of_cleaned hcleaned⟩

/-- Half an address is staged, and three virtines are cleaned while another snapshot is set: one before the first access, one
between the first two and one before the last. -/
theorem publication_of_command_amid_a_pass :
    let m := (fresh (DenseMemory.zeros 64) 1 (.ofCapacity 1)).run [.write Register.readyTail.address [16, 0, 0, 0, 0, 0, 0, 0],
      .write Register.readyTail.address [32, 0, 0, 0, 0, 0, 0, 0], .write Register.readyTail.address [48, 0, 0, 0, 0, 0, 0, 0],
      .write Register.snapshotAddress.address [9, 9, 9, 9], .signal]
    let j := (Host.command beside (.setSnapshot 8 4) ((m, []), [[(), ()], [()], [()]])).2.1
    (m.trail j.2).map (fun n => (n.cleanNext.1, n.device.snapshot)) =
        [(.cleaned ⟨16, by decide⟩, ⟨0, 0⟩), (.cleaned ⟨32, by decide⟩, ⟨0, 4⟩), (.cleaned ⟨48, by decide⟩, ⟨0, 4⟩)] ∧
      (∀ n ∈ m.trail j.2, ∀ a, n.cleanNext.1 = .cleaned a → ∃ snapshot ∈ ([⟨0, 0⟩, ⟨0, 4⟩, ⟨8, 4⟩] : List Snapshot),
        Copied n.memory n.cleanNext.2.memory snapshot.address.toNat a.word.toNat snapshot.size.toNat) ∧
      j.1.settings = (1, ⟨8, 4⟩) ∧ j.1.device.stagedSnapshotAddress = none := by
  intro m j
  have htrail : (m.trail j.2).map (fun n => (n.cleanNext.1, n.device.snapshot)) =
      [(.cleaned ⟨16, by decide⟩, ⟨0, 0⟩), (.cleaned ⟨32, by decide⟩, ⟨0, 4⟩), (.cleaned ⟨48, by decide⟩, ⟨0, 4⟩)] := by
    decide +kernel
  have hsettings : m.settings = (1, ⟨0, 0⟩) := by decide +kernel
  have hsnapshot : m.device.snapshot = ⟨0, 0⟩ := congrArg Prod.snd hsettings
  obtain ⟨-, -, hcopied, hlast, hnone⟩ := publication_of_command m (.setSnapshot 8 4) [[(), ()], [()], [()]]
  rw [hsettings, hsnapshot] at hcopied
  rw [hsettings] at hlast
  exact ⟨htrail, hcopied, hlast, hnone 8 4 rfl⟩

end Machine

end VirtineCleaning

import VirtineCleaning.CommandLine.Program
import VirtineCleaning.Proofs.Session.Conclusion

/-!
# A session cleans everything

Until its snapshot is set there is nothing to do for a worker or a listener, so a session begins in one way on every system that
provides for it. The rounds lead from there, on whatever system, to the end with every virtine cleaned and reclaimed, or to a
timeout on one that does not let the worker rest.
-/

namespace VirtineCleaning.Session

open CommandLine (Invocation Outcome reportSession)
open SimulatedDevice (attached listening Quiet)

variable {c : Config} {o : Options} {l : Layout} {start : DenseMemory} {log : List PlatformEvent}

/-- There are the memory and the threads that a session under a configuration asks for. -/
structure System.Provides (y : System) (c : Config) : Prop where
  breakdown : c.breakdown? y.memory = none
  worker : y.workerRefusal = none
  listener : y.listenerRefusal = none

/-! ## The beginning -/

/-- Where a worker is started for it, a device is attached. -/
theorem attach_of_valid (hc : c.validate = .ok ()) (memory : DenseMemory) :
    ∃ log, Attachment.attach (Simulated.platformWith none) { config := c, memory } =
      .ok (attached c log ⟨.ofConfig c, memory⟩ (some 0) none) := by
  refine ⟨[.acquired .enableDevice, .acquired .requestRegion, .acquired .mapRegisters, .acquired .allocateIrq], ?_⟩
  simp [Attachment.attach, Attachment.acquire, Simulated.platformWith, Simulated.acquirePlain, Simulated.attempt, Simulated.record,
    Simulated.mapRegisters, Simulated.allocateIrq, Simulated.stopMapped, Simulated.dropIrq, attached, Simulated.mapping, hc]

/-- Without a worker none is. -/
theorem attach_of_refusal (hc : c.validate = .ok ()) (memory : DenseMemory) (reason : String) :
    ∃ e, Attachment.attach (Simulated.platformWith (some reason)) { config := c, memory } = .error e := by
  simp only [Attachment.attach, Attachment.acquire, Simulated.platformWith, Simulated.acquirePlain, Simulated.attempt,
    Simulated.record, Simulated.mapRegisters, hc, reduceCtorEq, if_false]
  exact ⟨_, rfl⟩

section

variable {m : Machine DenseMemory} {irq : Option Nat} {listener : Option (Listener Nat)}

/-- A moment passes without anything happening to a quiet device. -/
theorem pause_of_quiet (hq : Quiet m) (hl : ∀ l, listener = some l → l.receiver = some 0) (y : System) (moment : Nat) :
    y.pause ⟨attached c log m irq listener, moment⟩ = ⟨attached c log m irq listener, moment + 1⟩ := by
  have hsteps : (y.course moment (attached c log m irq listener)).foldl SimulatedDevice.beside (attached c log m irq listener) =
      attached c log m irq listener := by
    refine List.foldlRecOn (motive := fun a => a = attached c log m irq listener) _ SimulatedDevice.beside rfl ?_
    rintro a rfl b -
    exact SimulatedDevice.beside_of_quiet hq hl b
  exact congrArg (Scene.mk · (moment + 1)) hsteps

/-- So only the write of the host does something to it. -/
theorem write_of_quiet (hq : Quiet m) (hl : ∀ l, listener = some l → l.receiver = some 0) (y : System) (offset : Word)
    (bytes : List UInt8) (moment : Nat) :
    (y.bus.write offset bytes ⟨attached c log m irq listener, moment⟩).2 =
      ⟨attached c log (m.apply (.write offset bytes)) irq listener, moment + 1⟩ := by
  have hwrite : ∀ s : Scene, (y.bus.write offset bytes s).2 =
      { y.pause s with device := (SimulatedDevice.window.write offset bytes (y.pause s).device).2 } := fun _ => rfl
  rw [hwrite, pause_of_quiet hq hl]
  rfl

end

/-- The machine of a session once its snapshot is set. -/
def initial (c : Config) (o : Options) (start : DenseMemory) : Machine DenseMemory :=
  ⟨{ Device.ofConfig c with snapshot := o.snapshot }, start⟩

/-- A command sets the snapshot of a new device, its size first. -/
theorem setSnapshot_of_new (y : System) (c : Config) (o : Options) (start : DenseMemory) (log : List PlatformEvent) (moment : Nat) :
    ∃ moment', (Host.command y.bus (.setSnapshot 0 o.snapshotSize)
        ⟨listening c log { machine := ⟨.ofConfig c, start⟩ }, moment⟩).2 =
      ⟨listening c log { machine := initial c o start }, moment'⟩ := by
  have hl : ∀ l : Listener Nat, some (Listener.mk (some 0) #[]) = some l → l.receiver = some 0 := by
    rintro l ⟨⟩
    rfl
  obtain ⟨sized, hsized⟩ : ∃ d : Device, d = { Device.ofConfig c with snapshot := o.snapshot } := ⟨_, rfl⟩
  have hfirst : (⟨.ofConfig c, start⟩ : Machine DenseMemory).apply
      (.write Register.snapshotSize.address o.snapshotSize.bytes) = ⟨sized, start⟩ := by
    have hdec : decode Register.snapshotSize.address 8 = .register .snapshotSize .full := by decide
    have hdevice : ((Device.ofConfig c).write Register.snapshotSize.address o.snapshotSize.bytes).2 = sized := by
      simp only [Device.write, Word.length_bytes, hdec, Device.writePart, Part.merge, Word.ofBytes_bytes, hsized]
      rfl
    exact congrArg (Machine.mk · start) hdevice
  have hsecond : (⟨sized, start⟩ : Machine DenseMemory).apply
      (.write Register.snapshotAddress.address (0 : Word).low.bytes) =
      ⟨{ sized with stagedSnapshotAddress := some (0 : Word).low }, start⟩ :=
    congrArg (Machine.mk · start) (sized.write_low (0 : Word).low .snapshotAddress)
  have hthird : (⟨{ sized with stagedSnapshotAddress := some (0 : Word).low }, start⟩ : Machine DenseMemory).apply
      (.write (Register.snapshotAddress.address + 4) (0 : Word).high.bytes) = initial c o start := by
    have hdevice := sized.write_low_high 0 .snapshotAddress
    rw [Device.write_full, Device.write_low] at hdevice
    refine congrArg (Machine.mk · start) (hdevice.trans ?_)
    rw [hsized]
    rfl
  have hnotifier : (Device.ofConfig c).line.notifier ≠ none := Option.some_ne_none _
  have hnew : Quiet ⟨.ofConfig c, start⟩ := ⟨rfl, rfl, hnotifier⟩
  have hquiet : Quiet ⟨sized, start⟩ := by
    rw [hsized]
    exact ⟨rfl, rfl, hnotifier⟩
  have hstaged : Quiet ⟨{ sized with stagedSnapshotAddress := some (0 : Word).low }, start⟩ :=
    ⟨hquiet.hasWork, hquiet.pending, hquiet.notifier⟩
  refine ⟨moment + 1 + 1 + 1, ?_⟩
  change (y.bus.write (Register.snapshotAddress.address + 4) (0 : Word).high.bytes
    (y.bus.write Register.snapshotAddress.address (0 : Word).low.bytes
      (y.bus.write Register.snapshotSize.address o.snapshotSize.bytes
        ⟨listening c log { machine := ⟨.ofConfig c, start⟩ }, moment⟩).2).2).2 = _
  rw [listening, write_of_quiet hnew hl, hfirst, write_of_quiet hquiet hl, hsecond, write_of_quiet hstaged hl, hthird]
  rfl

/-- Nothing has happened to it yet. -/
theorem steady_initial (c : Config) (o : Options) (start : DenseMemory) : Steady c o start { machine := initial c o start } [] where
  accounted := { Device.Accounts.fresh c.batchFactor c.notificationCapacity.toNat with }
  batches := { Reception.exact_fresh start c.batchFactor c.notificationCapacity.toNat with }
  coherent := { @Device.Coherent.fresh c.batchFactor (.ofCapacity c.notificationCapacity.toNat) rfl with }
  balanced := { Device.Balanced.fresh c.batchFactor (.ofCapacity c.notificationCapacity.toNat) with }
  attended _ hlt := absurd hlt (Nat.lt_irrefl 0)
  isStopping := rfl
  snapshot := rfl
  steps_eq := rfl
  steps := List.forall_mem_nil _
  changes := ⟨rfl, fun _ hi => absurd rfl hi⟩
  restores _ _ := ⟨fun _ _ => rfl, List.forall_mem_nil _⟩

/-- So no virtine was submitted. -/
theorem stands_initial (c : Config) (o : Options) (l : Layout) (start : DenseMemory) (log : List PlatformEvent) :
    Stands c o l start log false (listening c log { machine := initial c o start }) 0 0 := by
  refine ⟨{ machine := initial c o start }, _, [], ⟨rfl, rfl, steady_initial c o start, rfl, nofun⟩, ?_, rfl, rfl⟩
  exact ⟨rfl, rfl, rfl, rfl, (steady_initial c o start).balanced⟩

/-- How a session begins that has a layout: its first virtine can be submitted, unless the system does not provide for it. -/
inductive Begins (y : System) (c : Config) (o : Options) (l : Layout) : Except Failure Scene → Prop where
  | ready {start : DenseMemory} {log : List PlatformEvent} {s : Scene} (hprovides : y.Provides c)
      (hsize : start.size = c.memorySize) (hprimed : Primed l o start)
      (hstands : Stands c o l start log false s.device 0 0) : Begins y c o l (.ok s)
  | refused {e : Failure} (hrefuses : ¬y.Provides c) (he : ∀ pending round, e ≠ .timedOut pending round) : Begins y c o l (.error e)

/-- The memory is prepared before anything is attached, and what the system refuses comes up in turn. -/
theorem attachPrepared_begins (y : System) (hc : c.validate = .ok ()) (hfits : l.Fits o c.memorySize) :
    Begins y c o l (attachPrepared y c o l) := by
  obtain ⟨start, hprepare, hsize, hprimed⟩ := prepare_of_fits hfits
  unfold attachPrepared makePlatform
  rw [hc]
  cases hbreakdown : c.breakdown? y.memory with
  | some b => exact .refused (fun h => by rw [h.breakdown] at hbreakdown; cases hbreakdown) nofun
  | none =>
    have hplatform : Simulated.ofConfig c = .ok { config := c, memory := .zeros c.memorySize } := by
      rw [Simulated.ofConfig, hc]
    simp only [hplatform, Except.mapError, hprepare, bind, Except.bind]
    cases hworker : y.workerRefusal with
    | some reason =>
      obtain ⟨e, hattach⟩ := attach_of_refusal hc start reason
      rw [hattach]
      exact .refused (fun h => by rw [h.worker] at hworker; cases hworker) nofun
    | none =>
      obtain ⟨log, hattach⟩ := attach_of_valid hc start
      rw [hattach]
      have hpause : y.pause ⟨attached c log ⟨.ofConfig c, start⟩ (some 0) none, 0⟩ =
          ⟨attached c log ⟨.ofConfig c, start⟩ (some 0) none, 1⟩ :=
        pause_of_quiet ⟨rfl, rfl, Option.some_ne_none _⟩ (by rintro l ⟨⟩) y 0
      simp only [hpause]
      cases hlistener : y.listenerRefusal with
      | some reason => exact .refused (fun h => by rw [h.listener] at hlistener; cases hlistener) nofun
      | none =>
        obtain ⟨moment, hcommand⟩ := setSnapshot_of_new y c o start log 1
        refine .ready ⟨hbreakdown, hworker, hlistener⟩ hsize hprimed (?_ : Stands c o l start log false _ 0 0)
        change Stands c o l start log false (Host.command y.bus (.setSnapshot 0 o.snapshotSize)
          ⟨listening c log { machine := ⟨.ofConfig c, start⟩ }, 1⟩).2.device 0 0
        rw [hcommand]
        exact stands_initial c o l start log

/-! ## The whole -/

/-- What becomes of a session that has a layout: it is over and did all it was asked to, or its time is up, or the system did not
provide for it. -/
inductive RunCase (y : System) (c : Config) (o : Options) : Except Failure (Summary × SimulatedDevice) → Prop where
  | completed {s : Summary} {a : SimulatedDevice} (hprovides : y.Provides c) (h : Completed c o s a.platform.memory) :
    RunCase y c o (.ok (s, a))
  | timedOut (pending round : Nat) (hy : ¬y.Restful) : RunCase y c o (.error (.timedOut pending round))
  | refused {e : Failure} (hrefuses : ¬y.Provides c) (he : ∀ pending round, e ≠ .timedOut pending round) : RunCase y c o (.error e)

/-- Every session that has a layout is one of these. -/
theorem run_case (y : System) (hc : c.validate = .ok ()) (hlayout : Layout.of c o = .ok l) (hfits : l.Fits o c.memorySize) :
    RunCase y c o (run y c o) := by
  have hbegins := attachPrepared_begins y hc hfits
  unfold run
  rw [hlayout]
  simp only [Except.mapError, bind, Except.bind]
  generalize attachPrepared y c o l = beginning at hbegins
  cases hbegins with
  | refused hrefuses he => exact .refused hrefuses he
  | @ready start log s hprovides hsize hprimed hstands =>
    have hinside : l.Fits o start.size := hsize ▸ hfits
    have hrounds := rounds_inTime y hinside o.virtines.toNat {} hstands (by omega)
    dsimp only
    generalize rounds y l {} o.virtines.toNat 0 s = answer at hrounds
    cases hrounds with
    | timedOut pending round hy => exact .timedOut pending round hy
    | @done next hdone =>
      obtain ⟨hprogress, hlast⟩ := hdone
      obtain ⟨progress, s'⟩ := next
      simp only [Nat.zero_add] at hprogress hlast
      obtain rfl : progress = _ := hprogress
      exact .completed hprovides (completed_conclude y hfits hsize hprimed hlast)

/-- The program performs a session once its configuration was loaded. -/
theorem performOn_run {i : Invocation} {source : Config.Source} (y : System) (hi : i.action = .run o)
    (hload : Config.load source i.overrides = .ok c) (hfilter : i.logFilter.any LogFilter.isDivided = false) :
    i.performOn y source = i.performWith y c := by
  have hneeds : i.needsConfig = true := by simp [Invocation.needsConfig, hi]
  simp [Invocation.performOn, hfilter, Invocation.performLogged, hneeds, hload]

/-- A session under a valid configuration that is not timed out succeeds exactly if the snapshot and the virtines, each in whole
pages, fit into the memory, and the system has the memory and starts the threads that it asks for; however the system lets the
worker and the listener run, and however long it lets the host wait. A session that does not fit has no layout and attaches no
device. One that succeeds did all it was asked to, and left the snapshot in every virtine and zeros elsewhere. It is timed out only
on a system that comes to a moment at which the worker has something left to do. So the program exits with zero exactly if the
session fits. -/
theorem session_cleans_everything (y : System) (c : Config) (o : Options) (hc : c.validate = .ok ())
    (ho : o.snapshotSize.toNat ≤ 2 ^ 64 - 4096) :
    ((∀ pending round, run y c o ≠ .error (.timedOut pending round)) →
        ((∃ s a, run y c o = .ok (s, a)) ↔ (o.virtines.toNat + 1) * o.stride ≤ c.memorySize.toNat ∧ y.Provides c)) ∧
      (c.memorySize.toNat < (o.virtines.toNat + 1) * o.stride →
        ∃ e, Layout.of c o = .error e ∧ run y c o = .error (.layout e)) ∧
      (∀ s a, run y c o = .ok (s, a) → Completed c o s a.platform.memory) ∧
      (y.Restful → ∀ pending round, run y c o ≠ .error (.timedOut pending round)) ∧
      ∀ (i : Invocation) (source : Config.Source), i.action = .run o → Config.load source i.overrides = .ok c →
        i.logFilter.any LogFilter.isDivided = false → y.Provides c →
        (∀ pending round, run y c o ≠ .error (.timedOut pending round)) →
        (i.performOn y source).exitCode =
          some (if (o.virtines.toNat + 1) * o.stride ≤ c.memorySize.toNat then 0 else 1) := by
  by_cases hfit : (o.virtines.toNat + 1) * o.stride ≤ c.memorySize.toNat
  · obtain ⟨l, hlayout, hfits⟩ := Layout.of_inside ho hfit
    have hcase := run_case y hc hlayout hfits
    have hnot : ¬c.memorySize.toNat < (o.virtines.toNat + 1) * o.stride := Nat.not_lt_of_le hfit
    generalize hrun : run y c o = result at hcase
    cases hcase with
    | @completed s a hprovides h =>
      refine ⟨fun _ => ⟨fun _ => ⟨hfit, hprovides⟩, fun _ => ⟨s, a, rfl⟩⟩, fun hlarge => absurd hlarge hnot, ?_, ?_, ?_⟩
      · rintro s' a' ⟨⟩
        exact h
      · rintro _ pending round ⟨⟩
      · intro i source hi hload hfilter _ _
        rw [performOn_run y hi hload hfilter, if_pos hfit]
        simp [Invocation.performWith, hi, hrun, reportSession, h.verified]
    | timedOut pending round hy =>
      refine ⟨fun hin => absurd rfl (hin pending round), fun hlarge => absurd hlarge hnot, ?_, fun hrest => absurd hrest hy, ?_⟩
      · rintro s a ⟨⟩
      · intro i source _ _ _ _ hin
        exact absurd rfl (hin pending round)
    | @refused e hrefuses he =>
      refine ⟨fun _ => ⟨?_, fun h => absurd h.2 hrefuses⟩, fun hlarge => absurd hlarge hnot, ?_, ?_, ?_⟩
      · rintro ⟨s, a, ⟨⟩⟩
      · rintro s a ⟨⟩
      · intro _ pending round hsame
        exact he pending round (Except.error.inj hsame)
      · intro i source _ _ _ hprovides
        exact absurd hprovides hrefuses
  · obtain ⟨e, hlayout⟩ := Layout.of_outside ho (Nat.lt_of_not_le hfit)
    have hrun : run y c o = .error (.layout e) := by
      rw [run, hlayout]
      rfl
    rw [hrun]
    refine ⟨fun _ => ⟨?_, fun h => absurd h.1 hfit⟩, fun _ => ⟨e, hlayout, rfl⟩, ?_, ?_, ?_⟩
    · rintro ⟨s, a, ⟨⟩⟩
    · rintro s a ⟨⟩
    · rintro _ pending round ⟨⟩
    · intro i source hi hload hfilter _ _
      rw [performOn_run y hi hload hfilter, if_neg hfit]
      simp [Invocation.performWith, hi, hrun, Outcome.ofSession, Outcome.failure]

/-- As many virtines as a memory has room for, one more than a queue holds, with batches of ten, on a system whose listener hears
nothing as long as the session lasts. -/
theorem session_cleans_everything_in_two_rounds :
    let c : Config := { memorySize := 0x66000, batchFactor := 10 }
    let o : Options := { virtines := 101, snapshotSize := 3 }
    let y : System := { System.usual with course := fun _ a => List.replicate (SimulatedDevice.told a 0 Device.workLeft) .work }
    let i : Invocation := ⟨.run o, false, none, none, ⟨some 10, some 0x66000⟩⟩
    c.validate = .ok () ∧ o.stride = 4096 ∧ y.Restful ∧ y.Provides c ∧
      (∃ s a, run y c o = .ok (s, a) ∧ s.reclaimed = 101 ∧ s.rounds = 2 ∧ s.notifications = 10 ∧
        s.notificationsDelivered + s.notificationsCoalesced = 10 ∧ s.verified = true) ∧
      (i.performOn y .defaults).exitCode = some 0 := by
  intro c o y i
  have hvalid : c.validate = .ok () := by decide
  have hstride : o.stride = 4096 := by decide
  have hfit : (o.virtines.toNat + 1) * o.stride ≤ c.memorySize.toNat := by decide
  have hrestful : y.Restful := System.restful_of_course fun _ _ => ⟨0, (List.append_nil _).symm⟩
  have hprovides : y.Provides c := ⟨by decide, rfl, rfl⟩
  obtain ⟨hok, -, hsummary, hintime, hexit⟩ := session_cleans_everything y c o hvalid (by decide)
  obtain ⟨s, a, hrun⟩ := (hok (hintime hrestful)).2 ⟨hfit, hprovides⟩
  have hcompleted := hsummary s a hrun
  have hcode := hexit i .defaults rfl (by decide) rfl hprovides (hintime hrestful)
  rw [if_pos hfit] at hcode
  have hten : s.notifications = 10 := hcompleted.notifications.trans (by decide)
  exact ⟨hvalid, hstride, hrestful, hprovides, ⟨s, a, hrun, hcompleted.reclaimed, hcompleted.rounds.trans (by decide), hten,
    hcompleted.delivered.trans hten, hcompleted.verified⟩, hcode⟩

end VirtineCleaning.Session

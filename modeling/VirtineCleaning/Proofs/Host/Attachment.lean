import VirtineCleaning.Attachment.Simulated
import VirtineCleaning.Proofs.Host.Simulation

/-!
# Balanced attachments

For every platform, whatever its steps answer and however their answers depend on its state: a step that fails undoes the steps
before it, last first, and nothing else, and a device that is attached releases each stage once, last first, whatever was done with
it before it ends (`attachment_balanced`). The platform is observed by writing down every acquisition and release that is asked of
it. The receiver of the notifications is followed through its owners, the device and its listeners, until one of them loses it.
-/

namespace VirtineCleaning

/-! ## Platforms that write down their calls -/

/-- An acquisition or a release that a platform was asked for. -/
inductive PlatformCall (ι : Type) where
  | acquire (stage : Stage)
  | release (stage : Stage) (irq : Option ι)

namespace Platform

variable {σ ρ ι : Type} (p : Platform σ ρ ι)

/-- The same platform, which writes down the acquisitions and releases it is asked for, whether they fail or not. -/
def logged : Platform (σ × List (PlatformCall ι)) ρ ι where
  enableDevice := fun (s, log) => ((p.enableDevice s).1, ((p.enableDevice s).2, log ++ [.acquire .enableDevice]))
  disableDevice := fun (s, log) => (p.disableDevice s, log ++ [.release .enableDevice none])
  requestRegion := fun (s, log) => ((p.requestRegion s).1, ((p.requestRegion s).2, log ++ [.acquire .requestRegion]))
  releaseRegion := fun (s, log) => (p.releaseRegion s, log ++ [.release .requestRegion none])
  mapRegisters := fun (s, log) => ((p.mapRegisters s).1, ((p.mapRegisters s).2, log ++ [.acquire .mapRegisters]))
  unmapRegisters := fun (s, log) => (p.unmapRegisters s, log ++ [.release .mapRegisters none])
  allocateIrq := fun (s, log) => ((p.allocateIrq s).1, ((p.allocateIrq s).2, log ++ [.acquire .allocateIrq]))
  freeIrq irq := fun (s, log) => (p.freeIrq irq s, log ++ [.release .allocateIrq irq])
  bus registers := (p.bus registers).focus Prod.fst fun s world => (s, world.2)
  poll irq := fun (s, log) => ((p.poll irq s).1, ((p.poll irq s).2, log))
  dropReceiver irq := fun (s, log) => (p.dropReceiver irq s, log)

/-- What a release of a stage is given, the receiver if it is that of the interrupt. -/
def released (stage : Stage) (irq : Option ι) : PlatformCall ι :=
  .release stage (if stage = .allocateIrq then irq else none)

/-- A release is written down. -/
theorem logged_release (stage : Stage) (irq : Option ι) (s : σ) (log : List (PlatformCall ι)) :
    p.logged.release stage irq (s, log) = (p.release stage irq s, log ++ [released stage irq]) := by
  cases stage <;> rfl

/-- Releasing stages one after the other is written down in this order. -/
theorem logged_releases (stages : List Stage) (irq : Stage → Option ι) (s : σ) (log : List (PlatformCall ι)) :
    stages.foldl (fun world stage => p.logged.release stage (irq stage) world) (s, log) =
      (stages.foldl (fun s stage => p.release stage (irq stage) s) s,
        log ++ stages.map fun stage => released stage (irq stage)) := by
  induction stages generalizing s log with
  | nil => rw [List.map_nil, List.append_nil, List.foldl_nil, List.foldl_nil]
  | cons stage rest ih =>
    rw [List.foldl_cons, logged_release, ih, List.append_assoc]
    rfl

/-- An access to registers is not written down, and comes out as without the log. -/
theorem logged_bus (registers : ρ) (log : List (PlatformCall ι)) :
    (p.logged.bus registers).Matches (fun world s => world = (s, log)) (p.bus registers) := by
  refine ⟨?_, ?_, ?_⟩
  · rintro offset buffer _ s rfl
    exact ⟨rfl, rfl⟩
  · rintro offset bytes _ s rfl
    exact ⟨rfl, rfl⟩
  · rintro _ s rfl
    rfl

/-! ## Acquisitions -/

/-- Acquires a stage, whatever handle comes with it. -/
def acquire (stage : Stage) (s : σ) : Except PlatformError Unit × σ :=
  match stage with
  | .enableDevice => p.enableDevice s
  | .requestRegion => p.requestRegion s
  | .mapRegisters => ((p.mapRegisters s).1.map fun _ => (), (p.mapRegisters s).2)
  | .allocateIrq => ((p.allocateIrq s).1.map fun _ => (), (p.allocateIrq s).2)

/-- Acquiring the stages one after the other succeeds, and leads from one state to another. -/
inductive Acquires : σ → List Stage → σ → Prop where
  | nil (s : σ) : Acquires s [] s
  | cons {s t u : σ} {stage : Stage} {rest : List Stage} (h : p.acquire stage s = (.ok (), t))
      (hrest : Acquires t rest u) : Acquires s (stage :: rest) u

variable {p}

/-- A mapping that was acquired gave registers. -/
theorem mapRegisters_of_acquire {s t : σ} (h : p.acquire .mapRegisters s = (.ok (), t)) :
    ∃ registers, p.mapRegisters s = (.ok registers, t) := by
  unfold acquire at h
  rcases hmap : p.mapRegisters s with ⟨answer, u⟩
  rw [hmap] at h
  cases answer with
  | error e => cases h
  | ok registers =>
    cases h
    exact ⟨registers, rfl⟩

/-- An acquisition is written down, whatever comes of it. -/
theorem logged_acquire (stage : Stage) (s : σ) (log : List (PlatformCall ι)) :
    p.logged.acquire stage (s, log) =
      ((p.acquire stage s).1, ((p.acquire stage s).2, log ++ [.acquire stage])) := by
  cases stage <;> rfl

/-- Acquisitions are written down in their order. -/
theorem Acquires.logged {s t : σ} {stages : List Stage} (h : p.Acquires s stages t) (log : List (PlatformCall ι)) :
    p.logged.Acquires (s, log) stages (t, log ++ stages.map .acquire) := by
  induction h generalizing log with
  | nil s =>
    rw [List.map_nil, List.append_nil]
    exact .nil _
  | @cons s t u stage rest h _ ih =>
    have hstep : p.logged.acquire stage (s, log) = (.ok (), (t, log ++ [.acquire stage])) := by
      rw [logged_acquire, h]
    have hrest := ih (log ++ [.acquire stage])
    rw [List.append_assoc] at hrest
    exact .cons hstep hrest

end Platform

/-- The stages that come before a stage. -/
def Stage.earlier (stage : Stage) : List Stage := order.takeWhile (· != stage)

namespace Attachment

variable {σ ρ ι : Type} (p : Platform σ ρ ι)

/-- A rollback releases the stages before the one that failed, last first. -/
theorem rollBack_logged (stage : Stage) (s : σ) (log : List (PlatformCall ι)) :
    rollBack p.logged stage (s, log) =
      (rollBack p stage s, log ++ stage.earlier.reverse.map fun done => Platform.released done none) :=
  p.logged_releases stage.earlier.reverse (fun _ => none) s log

theorem releaseAll_logged (irq : Option ι) (s : σ) (log : List (PlatformCall ι)) :
    releaseAll p.logged irq (s, log) =
      (releaseAll p irq s, log ++ Stage.order.reverse.map fun stage => Platform.released stage irq) := by
  unfold releaseAll
  rw [p.logged_releases Stage.order.reverse (fun stage => if stage = .allocateIrq then irq else none)]
  rfl

variable {p}

/-- Acquires stages one after the other, up to the first that fails. -/
def acquireEach (p : Platform σ ρ ι) : List Stage → σ → Except AttachError Unit × σ
  | [], s => (.ok (), s)
  | stage :: rest, s =>
    match p.acquire stage s with
    | (.error e, s) => (.error ⟨stage, e⟩, s)
    | (.ok (), s) => acquireEach p rest s

/-- An attachment acquires every stage so, and keeps the handles of two of them. -/
theorem acquireEach_order (p : Platform σ ρ ι) (s : σ) :
    acquireEach p Stage.order s = ((acquire p s).1.map fun _ => (), (acquire p s).2) := by
  simp only [acquireEach, Stage.order, Platform.acquire, acquire]
  rcases p.enableDevice s with ⟨_ | ⟨⟩, s⟩
  · rfl
  dsimp only
  rcases p.requestRegion s with ⟨_ | ⟨⟩, s⟩
  · rfl
  dsimp only
  rcases p.mapRegisters s with ⟨_ | registers, s⟩
  · rfl
  dsimp only [Except.map]
  rcases p.allocateIrq s with ⟨_ | irq, s⟩
  · rfl
  · rfl

/-- Once stages were acquired, those behind them are next. -/
theorem acquireEach_of_acquires {s t : σ} {stages : List Stage} (h : p.Acquires s stages t) (more : List Stage) :
    acquireEach p (stages ++ more) s = acquireEach p more t := by
  induction h with
  | nil => rfl
  | cons h _ ih =>
    rw [List.cons_append, acquireEach, h]
    exact ih

/-- Where a stage fails, the stages before it are released and the error names it. -/
theorem attach_of_failed {s t u : σ} {stage : Stage} {e : PlatformError} (hearlier : p.Acquires s stage.earlier t)
    (hfail : p.acquire stage t = (.error e, u)) : attach p s = .error (⟨stage, e⟩, rollBack p stage u) := by
  have horder : ∃ later, Stage.order = stage.earlier ++ stage :: later := by
    cases stage <;> exact ⟨_, rfl⟩
  obtain ⟨later, horder⟩ := horder
  have heach : acquireEach p Stage.order s = (.error ⟨stage, e⟩, u) := by
    rw [horder, acquireEach_of_acquires hearlier, acquireEach, hfail]
  rw [acquireEach_order] at heach
  rcases hacquire : acquire p s with ⟨answer, v⟩
  rw [hacquire] at heach
  cases answer with
  | error failure =>
    cases heach
    rw [attach, hacquire]
  | ok handles => cases heach

/-- Where no stage fails, the device is attached and holds the receiver that came with the last stage. -/
theorem attach_of_acquired {s t u : σ} {irq : ι} (hearlier : p.Acquires s Stage.allocateIrq.earlier t)
    (hirq : p.allocateIrq t = (.ok irq, u)) :
    ∃ registers, attach p s = .ok { platform := u, registers, irq := some irq } := by
  change p.Acquires s [.enableDevice, .requestRegion, .mapRegisters] t at hearlier
  obtain _ | ⟨henable, hearlier⟩ := hearlier
  obtain _ | ⟨hrequest, hearlier⟩ := hearlier
  obtain _ | ⟨hmap, hearlier⟩ := hearlier
  cases hearlier
  obtain ⟨registers, hmap⟩ := Platform.mapRegisters_of_acquire hmap
  have hacquire : acquire p s = (.ok (registers, irq), u) := by
    change p.enableDevice s = _ at henable
    change p.requestRegion _ = _ at hrequest
    simp only [acquire, henable, hrequest, hmap, hirq]
  exact ⟨registers, by rw [attach, hacquire]⟩

/-! ## Uses of an attached device -/

end Attachment

namespace Listener

variable {ι σ : Type}

/-- An iteration loses the receiver: the callback fails, or the notifier is gone. -/
def loses (poll : ι → σ → Receipt × σ) (callback : Notification → Bool) (l : Listener ι) (s : σ) : Bool :=
  l.receiver.any fun receiver =>
    match (poll receiver s).1 with
    | .notification n => !callback n
    | .timeout => false
    | .disconnected => true

/-- An iteration keeps the receiver, unless it is the one that loses it. -/
theorem receiver_iterate (poll : ι → σ → Receipt × σ) (drop : ι → σ → σ) (callback : Notification → Bool)
    (l : Listener ι) (s : σ) :
    (l.iterate poll drop callback s).1.receiver = if l.loses poll callback s then none else l.receiver := by
  unfold iterate loses
  rcases hr : l.receiver with _ | receiver
  · exact hr
  obtain ⟨receipt, next, hpoll⟩ : ∃ receipt next, poll receiver s = (receipt, next) := ⟨_, _, rfl⟩
  simp only [hpoll, Option.any_some]
  cases receipt with
  | notification n =>
    by_cases hcallback : callback n = true
    · simp [hcallback]
    · simp [hcallback]
  | timeout => exact hr
  | disconnected => rfl

end Listener

namespace Attachment

variable {σ ρ ι : Type} {p : Platform σ ρ ι}

/-- One iteration of the listener, if there is one, with a callback that may fail. -/
def hearOnce (p : Platform σ ρ ι) (callback : Notification → Bool) (a : Attachment σ ρ ι) : Attachment σ ρ ι :=
  match a.listener with
  | none => a
  | some l =>
    { a with
      platform := (l.iterate p.poll p.dropReceiver callback a.platform).2
      listener := some (l.iterate p.poll p.dropReceiver callback a.platform).1 }

end Attachment

/-- What is done with an attached device, by its owner or by its listener. -/
inductive Use where
  | listen
  | failToListen
  | unlisten
  | takeIrq
  | hear (callback : Notification → Bool)
  | call (c : HostCall)

namespace Attachment

variable {σ ρ ι : Type} (p : Platform σ ρ ι)

/-- What a use does. -/
def use (a : Attachment σ ρ ι) : Use → Attachment σ ρ ι
  | .listen => a.listen.2
  | .failToListen => a.failToListen p
  | .unlisten => a.unlisten
  | .takeIrq => a.takeIrq.2
  | .hear callback => a.hearOnce p callback
  | .call c => (a.host p fun bus => c.carryOut bus).2

/-- Uses, one after the other. -/
def uses (a : Attachment σ ρ ι) (done : List Use) : Attachment σ ρ ι := done.foldl (use p) a

/-- A use loses the receiver: it is taken away, or a listener that had it ends, since its thread does not start, its callback fails
or the notifier is gone. -/
def loses (a : Attachment σ ρ ι) : Use → Bool
  | .takeIrq => a.irq.isSome
  | .failToListen => a.listener.isNone && a.irq.isSome
  | .hear callback => a.listener.any fun l => l.loses p.poll callback a.platform
  | .listen | .unlisten | .call _ => false

/-- One of the uses loses the receiver. -/
def loseIn (a : Attachment σ ρ ι) : List Use → Bool
  | [] => false
  | u :: rest => a.loses p u || loseIn (a.use p u) rest

/-- The receiver that the device holds once its listener has been stopped. -/
def inHand (a : Attachment σ ρ ι) : Option ι := a.unlisten.irq

variable {p}

/-- A device in use is attached, its receiver has one owner at most and is still there if `held` is, and its platform was asked for
nothing but what the log holds. -/
structure InUse (a : Attachment (σ × List (PlatformCall ι)) ρ ι) (log : List (PlatformCall ι)) (held : Option ι) :
    Prop where
  attached : a.attached = true
  alone : a.listener.isSome = true → a.irq = none
  log_eq : a.platform.2 = log
  held_eq : a.inHand = held

/-- Stopping the listener asks nothing of the platform. -/
theorem platform_unlisten (a : Attachment σ ρ ι) : a.unlisten.platform = a.platform := by
  unfold unlisten
  split <;> rfl

theorem listener_unlisten (a : Attachment σ ρ ι) : a.unlisten.listener = none := by
  unfold unlisten
  split
  · assumption
  · rfl

/-- A device that ends may have its listener stopped before. -/
theorem detach_unlisten {a : Attachment σ ρ ι} (h : a.attached = true) : a.unlisten.detach p = a.detach p := by
  obtain ⟨platform, registers, irq, listener, attached⟩ := a
  cases h
  cases listener <;> rfl

section

variable {a : Attachment (σ × List (PlatformCall ι)) ρ ι} {log : List (PlatformCall ι)} {held : Option ι}

/-- An iteration of a listener asks nothing of the platform, and ends the listener if it loses the receiver. -/
theorem iterate_logged (l : Listener ι) (callback : Notification → Bool) (world : σ × List (PlatformCall ι)) :
    (l.iterate p.logged.poll p.logged.dropReceiver callback world).2.2 = world.2 := by
  unfold Listener.iterate
  obtain ⟨s, log⟩ := world
  cases l.receiver with
  | none => rfl
  | some receiver =>
    simp only [Platform.logged]
    rcases p.poll receiver s with ⟨_ | _ | _, s⟩
    · dsimp only
      split <;> rfl
    · rfl
    · rfl

/-- A use leaves the device in use, with the receiver that it had or without one. -/
theorem InUse.use (h : a.InUse log held) (u : Use) :
    (a.use p.logged u).InUse log (if a.loses p.logged u then none else held) := by
  obtain ⟨⟨s, log⟩, registers, irq, listener, attached⟩ := a
  obtain ⟨rfl, halone, rfl, rfl⟩ := h
  dsimp only at halone
  cases u with
  | listen =>
    rcases listener with _ | l
    · rcases irq with _ | receiver
      · exact ⟨rfl, nofun, rfl, rfl⟩
      · exact ⟨rfl, fun _ => rfl, rfl, rfl⟩
    · exact ⟨rfl, halone, rfl, rfl⟩
  | failToListen =>
    rcases listener with _ | l
    · rcases irq with _ | receiver
      · exact ⟨rfl, nofun, rfl, rfl⟩
      · exact ⟨rfl, nofun, rfl, rfl⟩
    · exact ⟨rfl, halone, rfl, rfl⟩
  | unlisten =>
    rcases listener with _ | l
    · exact ⟨rfl, nofun, rfl, rfl⟩
    · exact ⟨rfl, nofun, rfl, rfl⟩
  | takeIrq =>
    rcases listener with _ | l
    · rcases irq with _ | receiver
      · exact ⟨rfl, nofun, rfl, rfl⟩
      · exact ⟨rfl, nofun, rfl, rfl⟩
    · rw [halone rfl]
      exact ⟨rfl, fun _ => rfl, rfl, rfl⟩
  | call c =>
    obtain ⟨-, hworld⟩ := (p.logged_bus registers log).carryOut c (s, log) s rfl
    have hlog : (c.carryOut (p.logged.bus registers) (s, log)).2.2 = log := congrArg Prod.snd hworld
    have hsame : inHand ⟨(c.carryOut (p.logged.bus registers) (s, log)).2, registers, irq, listener, true⟩ =
        inHand ⟨(s, log), registers, irq, listener, true⟩ := by
      cases listener <;> rfl
    exact ⟨rfl, halone, hlog, hsame⟩
  | hear callback =>
    rcases listener with _ | l
    · exact ⟨rfl, nofun, rfl, rfl⟩
    · exact ⟨rfl, halone, iterate_logged l callback (s, log),
        l.receiver_iterate p.logged.poll p.logged.dropReceiver callback (s, log)⟩

theorem InUse.uses (h : a.InUse log held) (done : List Use) :
    (a.uses p.logged done).InUse log (if a.loseIn p.logged done then none else held) := by
  induction done generalizing a held with
  | nil => exact h
  | cons u rest ih =>
    have hrest := ih (h.use (p := p) u)
    have hheld : (if (a.use p.logged u).loseIn p.logged rest then none
        else if a.loses p.logged u then none else held) = if a.loseIn p.logged (u :: rest) then none else held := by
      rw [loseIn]
      cases a.loses p.logged u <;> cases (a.use p.logged u).loseIn p.logged rest <;> rfl
    rw [hheld] at hrest
    exact hrest

/-- The end of a device in use stops the listener, and then releases every stage with the receiver that is in hand. -/
theorem InUse.detach_eq (h : a.InUse log held) :
    a.detach p.logged = ⟨(releaseAll p held a.platform.1,
      log ++ Stage.order.reverse.map fun stage => Platform.released stage held), a.registers, none, none, false⟩ := by
  obtain ⟨⟨s, log⟩, registers, irq, listener, attached⟩ := a
  obtain ⟨rfl, -, rfl, rfl⟩ := h
  have hdetach : ∀ irq : Option ι, (⟨releaseAll p.logged irq (s, log), registers, none, none, false⟩ :
      Attachment (σ × List (PlatformCall ι)) ρ ι) = ⟨(releaseAll p irq s,
        log ++ Stage.order.reverse.map fun stage => Platform.released stage irq), registers, none, none, false⟩ := by
    intro irq
    rw [releaseAll_logged]
  cases listener with
  | none => exact hdetach irq
  | some l => exact hdetach l.receiver

end

/-- For every platform: where a stage fails, the platform was asked for the stages up to it, in order, and to release those before
it, last first, and the error is that of the stage. Where none fails, the device asks for nothing more while it is in use, and its
end, of which stopping the listener is the first part, asks to release every stage, last first, once. The release of the interrupt
is given the receiver that the device has in hand when the listener is stopped, which is the one it was attached with unless one of
the uses lost it. -/
theorem attachment_balanced (p : Platform σ ρ ι) (s : σ) :
    (∀ stage t u e, p.Acquires s stage.earlier t → p.acquire stage t = (.error e, u) →
      attach p.logged (s, []) = .error (⟨stage, e⟩, rollBack p stage u,
        (stage.earlier ++ [stage]).map .acquire ++ stage.earlier.reverse.map fun done => .release done none)) ∧
      ∀ t u irq, p.Acquires s Stage.allocateIrq.earlier t → p.allocateIrq t = (.ok irq, u) →
        ∃ a, attach p.logged (s, []) = .ok a ∧ a.platform.1 = u ∧ a.irq = some irq ∧ ∀ done,
          let b := a.uses p.logged done
          b.platform.2 = Stage.order.map .acquire ∧ b.unlisten.platform = b.platform ∧ b.unlisten.listener = none ∧
            b.inHand = (if a.loseIn p.logged done then none else some irq) ∧
            b.detach p.logged = b.unlisten.detach p.logged ∧
            (b.detach p.logged).platform = (releaseAll p b.inHand b.platform.1, Stage.order.map .acquire ++
              [.release .allocateIrq b.inHand, .release .mapRegisters none, .release .requestRegion none,
                .release .enableDevice none]) ∧
            (b.detach p.logged).detach p.logged = b.detach p.logged := by
  constructor
  · intro stage t u e hearlier hfail
    have hfail' : p.logged.acquire stage (t, stage.earlier.map .acquire) =
        (.error e, (u, (stage.earlier ++ [stage]).map .acquire)) := by
      rw [Platform.logged_acquire, hfail, List.map_append, List.map_singleton]
    have hnone : (fun done => Platform.released done none) = fun done => (.release done none : PlatformCall ι) := by
      funext done
      rw [Platform.released, ite_self]
    rw [attach_of_failed (hearlier.logged []) hfail', rollBack_logged, hnone]
  · intro t u irq hearlier hirq
    have hirq' : p.logged.allocateIrq (t, Stage.allocateIrq.earlier.map .acquire) =
        (.ok irq, (u, Stage.order.map .acquire)) := by
      simp only [Platform.logged, hirq]
      rfl
    obtain ⟨registers, hattach⟩ := attach_of_acquired (hearlier.logged []) hirq'
    refine ⟨_, hattach, rfl, rfl, ?_⟩
    intro done b
    have hnew : InUse (⟨(u, Stage.order.map .acquire), registers, some irq, none, true⟩ :
        Attachment (σ × List (PlatformCall ι)) ρ ι) (Stage.order.map .acquire) (some irq) := ⟨rfl, nofun, rfl, rfl⟩
    have hused := hnew.uses (p := p) done
    have hheld := hused.held_eq
    have hdetach := hused.detach_eq (p := p)
    rw [← hheld] at hdetach
    refine ⟨hused.log_eq, b.platform_unlisten, b.listener_unlisten, hheld, (detach_unlisten hused.attached).symm, ?_, ?_⟩
    · exact congrArg Attachment.platform hdetach
    · rw [hdetach]
      rfl

/-- The simulated platform with a step that fails, and without one, where the interrupt is released with the receiver that a listener
gave back. -/
theorem attachment_balanced_simulated :
    let s : Simulated := { config := { memorySize := 1 }, memory := .zeros 1 }
    (∃ u, attach Simulated.platform.logged ({ s with failAt := some .mapRegisters }, []) =
        .error (⟨.mapRegisters, .injected .mapRegisters⟩, u, [.acquire .enableDevice, .acquire .requestRegion,
          .acquire .mapRegisters, .release .requestRegion none, .release .enableDevice none])) ∧
      ∃ a, attach Simulated.platform.logged (s, []) = .ok a ∧
        ((a.uses Simulated.platform.logged [.listen, .hear fun _ => true, .call (.call .ringDoorbell), .unlisten]).detach
          Simulated.platform.logged).platform.2 = [.acquire .enableDevice, .acquire .requestRegion,
            .acquire .mapRegisters, .acquire .allocateIrq, .release .allocateIrq (some 0), .release .mapRegisters none,
            .release .requestRegion none, .release .enableDevice none] := by
  intro s
  constructor
  · obtain ⟨hfail, -⟩ := attachment_balanced Simulated.platform { s with failAt := some .mapRegisters }
    exact ⟨_, hfail .mapRegisters _ _ _ (.cons rfl (.cons rfl (.nil _))) rfl⟩
  · obtain ⟨-, hok⟩ := attachment_balanced Simulated.platform s
    obtain ⟨a, hattach, -, -, huses⟩ := hok _ _ 0 (.cons rfl (.cons rfl (.cons rfl (.nil _)))) rfl
    obtain ⟨-, -, -, hheld, -, hplatform, -⟩ :=
      huses [.listen, .hear fun _ => true, .call (.call .ringDoorbell), .unlisten]
    have hkept : a.loseIn Simulated.platform.logged
        [.listen, .hear fun _ => true, .call (.call .ringDoorbell), .unlisten] = false := by
      cases hattach
      decide +kernel
    rw [hkept, if_neg Bool.false_ne_true] at hheld
    rw [hheld] at hplatform
    exact ⟨a, hattach, congrArg Prod.snd hplatform⟩

end Attachment

end VirtineCleaning

import VirtineCleaning.Listener
import VirtineCleaning.Platform.Basic

/-!
# Attached devices

Attaching acquires every stage in order. Where one fails, those acquired before it are released again, last first, so
a failed attachment leaves nothing behind. An attached device holds the receiver of its notifications until it is
taken or given to a listener. Its end stops the listener and releases every stage, last first, once.
-/

namespace VirtineCleaning

/-- The stage at which attaching failed, and why. -/
structure AttachError where
  stage : Stage
  source : PlatformError
deriving DecidableEq, Repr

/-- The wording of a failed attachment. -/
def AttachError.message (e : AttachError) : String := "failed to " ++ e.stage.text

/-- Why no listener was registered. -/
inductive ListenError where
  | alreadyListening
  | noReceiver
  /-- The system started no thread for the listener. -/
  | spawn (reason : String)
deriving DecidableEq, Repr

/-- The wording of a refused listener. -/
def ListenError.message : ListenError → String
  | .alreadyListening => "a listener is already registered"
  | .noReceiver => "the notification receiver was taken"
  | .spawn _ => "failed to spawn notification listener thread"

/-- The wording with what lies behind the refusal. -/
def ListenError.fullMessage (e : ListenError) : String :=
  match e with
  | .spawn reason => e.message ++ ": " ++ reason
  | _ => e.message

/-- A device attached through a platform. -/
structure Attachment (σ ρ ι : Type) where
  platform : σ
  registers : ρ
  /-- The receiver, while the device holds it. -/
  irq : Option ι
  listener : Option (Listener ι) := none
  attached : Bool := true

namespace Attachment

variable {σ ρ ι : Type} (p : Platform σ ρ ι)

/-- Releases the stages that come before `stage`, last first. -/
def rollBack (stage : Stage) (s : σ) : σ :=
  (Stage.order.takeWhile (· != stage)).reverse.foldl (fun s done => p.release done none s) s

/-- Acquires every stage in order, up to the first that fails. -/
def acquire (s : σ) : Except AttachError (ρ × ι) × σ :=
  match p.enableDevice s with
  | (.error e, s) => (.error ⟨.enableDevice, e⟩, s)
  | (.ok (), s) =>
    match p.requestRegion s with
    | (.error e, s) => (.error ⟨.requestRegion, e⟩, s)
    | (.ok (), s) =>
      match p.mapRegisters s with
      | (.error e, s) => (.error ⟨.mapRegisters, e⟩, s)
      | (.ok registers, s) =>
        match p.allocateIrq s with
        | (.error e, s) => (.error ⟨.allocateIrq, e⟩, s)
        | (.ok irq, s) => (.ok (registers, irq), s)

/-- Attaches a device; a failure leaves a platform on which everything acquired was released. -/
def attach (s : σ) : Except (AttachError × σ) (Attachment σ ρ ι) :=
  match acquire p s with
  | (.ok (registers, irq), s) => .ok { platform := s, registers, irq := some irq }
  | (.error e, s) => .error (e, rollBack p e.stage s)

/-- Applies a host operation through the registers of the device. -/
def host {α : Type} (a : Attachment σ ρ ι) (op : Bus σ → StateM σ α) : α × Attachment σ ρ ι :=
  let ⟨platform, registers, irq, listener, attached⟩ := a
  match op (p.bus registers) platform with
  | (result, platform) => (result, ⟨platform, registers, irq, listener, attached⟩)

/-- Takes the receiver from the device. -/
def takeIrq (a : Attachment σ ρ ι) : Option ι × Attachment σ ρ ι := (a.irq, { a with irq := none })

/-- Gives the receiver to a new listener. -/
def listen (a : Attachment σ ρ ι) : Except ListenError Unit × Attachment σ ρ ι :=
  if a.listener.isSome then (.error .alreadyListening, a)
  else
    match a.irq with
    | none => (.error .noReceiver, a)
    | some irq => (.ok (), { a with irq := none, listener := some (.start irq) })

/-- A listener was given the receiver, but no thread was started for it: the receiver is lost. -/
def failToListen (a : Attachment σ ρ ι) : Attachment σ ρ ι :=
  if a.listener.isSome then a
  else
    match a.irq with
    | none => a
    | some irq => { a with platform := p.dropReceiver irq a.platform, irq := none }

/-- Gives the receiver to a new listener, on a system that refuses to start its thread if there is a reason for it. -/
def listenWith (refusal : Option String) (a : Attachment σ ρ ι) : Except ListenError Unit × Attachment σ ρ ι :=
  match a.listen, refusal with
  | (.ok (), _), some reason => (.error (.spawn reason), a.failToListen p)
  | answer, _ => answer

/-- Stops the listener, if there is one, and takes back what it returns. -/
def unlisten (a : Attachment σ ρ ι) : Attachment σ ρ ι :=
  match a.listener with
  | none => a
  | some l => { a with irq := l.stop, listener := none }

/-- The listener, if there is one, makes `n` iterations. -/
def hear (n : Nat) (a : Attachment σ ρ ι) : Attachment σ ρ ι :=
  let ⟨platform, registers, irq, listener, attached⟩ := a
  match listener with
  | none => ⟨platform, registers, irq, none, attached⟩
  | some l =>
    match l.iterateN p.poll p.dropReceiver (fun _ => true) n platform with
    | (l, platform) => ⟨platform, registers, irq, some l, attached⟩

/-- Releases every stage, last first; the interrupt takes back the receiver, if there is one. -/
def releaseAll (irq : Option ι) (s : σ) : σ :=
  Stage.order.reverse.foldl (fun s stage => p.release stage (if stage = .allocateIrq then irq else none) s) s

/-- Ends the attachment: stops the listener and releases every stage. A device that was detached stays as it is. -/
def detach (a : Attachment σ ρ ι) : Attachment σ ρ ι :=
  if a.attached then
    let ⟨platform, registers, irq, _, _⟩ := a.unlisten
    ⟨releaseAll p irq platform, registers, none, none, false⟩
  else a

end Attachment

end VirtineCleaning

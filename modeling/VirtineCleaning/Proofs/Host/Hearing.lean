import Mathlib.Logic.Relation
import VirtineCleaning.Proofs.Host.Attachment
import VirtineCleaning.Proofs.Notification

/-!
# Listeners take turns and lose nothing

The receiver of an attached device is with the device, with its listener or with a caller who took it. A listener has a thread of
its own, which looks whether it was asked to stop, waits for a notification, and calls back: three steps, and a request to stop can
fall between any two. Whatever order the steps of the caller, of the thread and of the notifier come in, the receiver has one holder,
and every notification that entered its line was seen once, in order, or is still pending (`heard_in_order`).
-/

namespace VirtineCleaning

variable {σ ρ ι : Type}

/-- A receiver is polled as its line is. -/
def Platform.Polls (p : Platform σ ρ ι) (line : ι → σ → Option Line) : Prop :=
  ∀ irq s l, line irq s = some l → (p.poll irq s).1 = l.poll.1 ∧ line irq (p.poll irq s).2 = some l.poll.2

/-- The notification that came, if one did. -/
def Receipt.toList : Receipt → List Notification
  | .notification n => [n]
  | .timeout | .disconnected => []

/-- Polling a receiver whose notifier is there takes what is first off its line, and nothing only if nothing is pending. -/
theorem Platform.Polls.poll_eq {p : Platform σ ρ ι} {line : ι → σ → Option Line} (hp : p.Polls line) {irq : ι} {s t : σ}
    {l : Line} {receipt : Receipt} (hline : line irq s = some l) (hnotifier : l.notifier.isSome = true)
    (hpoll : p.poll irq s = (receipt, t)) :
    receipt ≠ .disconnected ∧ (receipt = .timeout → l.pending = []) ∧
      ∃ rest, l.pending = receipt.toList ++ rest ∧ line irq t = some { l with pending := rest } := by
  obtain ⟨hreceipt, hnext⟩ := hp irq s l hline
  rw [hpoll] at hreceipt hnext
  cases hpending : l.pending with
  | nil =>
    rw [Line.poll_nil hpending, if_pos hnotifier] at hreceipt hnext
    cases hreceipt
    exact ⟨nofun, fun _ => rfl, [], rfl, by rw [hnext, ← hpending]⟩
  | cons n rest =>
    rw [Line.poll_cons hpending] at hreceipt hnext
    cases hreceipt
    exact ⟨nofun, nofun, rest, rfl, hnext⟩

namespace Attachment

/-- A device that was attached has the receiver, and no listener. -/
theorem fresh_of_attach {p : Platform σ ρ ι} {s : σ} {a : Attachment σ ρ ι} (h : attach p s = .ok a) :
    a.irq.isSome = true ∧ a.listener = none := by
  unfold attach at h
  split at h
  · cases h
    exact ⟨rfl, rfl⟩
  · cases h

/-- A listener is registered where there is none and the device has the receiver, and gets it. -/
theorem listen_of_ok {a : Attachment σ ρ ι} (h : a.listen.1 = .ok ()) :
    a.listener = none ∧ ∃ irq, a.irq = some irq ∧ a.listen.2 = { a with irq := none, listener := some (.start irq) } := by
  obtain ⟨platform, registers, irq, listener, attached⟩ := a
  rcases listener with _ | l
  · rcases irq with _ | irq
    · cases h
    · exact ⟨rfl, irq, rfl, rfl⟩
  · cases h

/-- A listener that is refused changes nothing. -/
theorem listen_of_error {a : Attachment σ ρ ι} {e : ListenError} (h : a.listen.1 = .error e) : a.listen.2 = a := by
  obtain ⟨platform, registers, irq, listener, attached⟩ := a
  rcases listener with _ | l
  · rcases irq with _ | irq
    · rfl
    · cases h
  · rfl

/-- Why a listener is refused: another is registered, or the device does not have the receiver. -/
theorem listen_error_iff (a : Attachment σ ρ ι) :
    (a.listen.1 = .error .alreadyListening ↔ a.listener.isSome = true) ∧
      (a.listen.1 = .error .noReceiver ↔ a.listener = none ∧ a.irq = none) := by
  obtain ⟨platform, registers, irq, listener, attached⟩ := a
  rcases listener with _ | l
  · rcases irq with _ | irq <;> simp [listen]
  · simp [listen]

end Attachment

/-! ## The thread of a listener -/

/-- What the thread of a listener does next. -/
inductive Thread where
  /-- It looks whether it was asked to stop. -/
  | looking
  /-- It waits for a notification, for a bounded time. -/
  | receiving
  /-- It calls back with a notification that it received. -/
  | calling (n : Notification)
deriving DecidableEq

/-- The notification that the thread has received and not called back with. -/
def Thread.inHand : Thread → List Notification
  | .calling n => [n]
  | .looking | .receiving => []

/-- An attached device in use by a caller, with the thread of its listener and with what was seen of its notifications. -/
structure Hearing (σ ρ ι : Type) where
  device : Attachment σ ρ ι
  /-- The thread, while a listener is registered. -/
  thread : Thread := .looking
  /-- The listener was asked to stop, and the caller waits for it. -/
  stopping : Bool := false
  /-- The receivers that the caller took. -/
  caller : List ι := []
  /-- What entered the line of the receiver. -/
  entered : List Notification
  /-- What the listeners heard that were stopped. -/
  heard : List Notification := []
  /-- What the caller received with a receiver of its own. -/
  drawn : List Notification := []

namespace Hearing

/-- What the present listener heard, and what its thread will call back with. -/
def hearing (w : Hearing σ ρ ι) : List Notification :=
  match w.device.listener with
  | none => []
  | some l => l.heard.toList ++ w.thread.inHand

/-- What was seen: by listeners, one after the other, and then by the caller. -/
def seen (w : Hearing σ ρ ι) : List Notification := w.heard ++ w.hearing ++ w.drawn

/-- The receivers that the device, its listener and the caller hold. -/
def holders (w : Hearing σ ρ ι) : List ι :=
  w.device.irq.toList ++ (w.device.listener.bind (·.receiver)).toList ++ w.caller

/-- The same parties on a platform that went on. -/
def onPlatform (w : Hearing σ ρ ι) (s : σ) : Hearing σ ρ ι := { w with device := { w.device with platform := s } }

/-- A step of the thread of a listener `l`, whose callback does not fail. -/
inductive ThreadStep (p : Platform σ ρ ι) (w : Hearing σ ρ ι) : Hearing σ ρ ι → Prop where
  | look {l : Listener ι} {irq : ι} (hl : w.device.listener = some l) (hr : l.receiver = some irq)
      (ht : w.thread = .looking) (hs : w.stopping = false) : ThreadStep p w { w with thread := .receiving }
  /-- It was asked to stop, or ended before, and the caller goes on. -/
  | join {l : Listener ι} (hl : w.device.listener = some l) (ht : w.thread = .looking ∨ l.isFinished = true)
      (hs : w.stopping = true) : ThreadStep p w
      { w with device := w.device.unlisten, stopping := false, heard := w.heard ++ l.heard.toList }
  | receive {l : Listener ι} {irq : ι} {n : Notification} {s : σ} (hl : w.device.listener = some l)
      (hr : l.receiver = some irq) (ht : w.thread = .receiving)
      (hpoll : p.poll irq w.device.platform = (.notification n, s)) :
      ThreadStep p w { w.onPlatform s with thread := .calling n }
  | timeout {l : Listener ι} {irq : ι} {s : σ} (hl : w.device.listener = some l) (hr : l.receiver = some irq)
      (ht : w.thread = .receiving) (hpoll : p.poll irq w.device.platform = (.timeout, s)) :
      ThreadStep p w { w.onPlatform s with thread := .looking }
  /-- The notifier is gone, and the thread ends with its receiver. -/
  | lose {l : Listener ι} {irq : ι} {s : σ} (hl : w.device.listener = some l) (hr : l.receiver = some irq)
      (ht : w.thread = .receiving) (hpoll : p.poll irq w.device.platform = (.disconnected, s)) :
      ThreadStep p w { w with
        device := { w.device with platform := p.dropReceiver irq s, listener := some { l with receiver := none } }
        thread := .looking }
  | call {l : Listener ι} {n : Notification} (hl : w.device.listener = some l) (ht : w.thread = .calling n) :
      ThreadStep p w { w with
        device := { w.device with listener := some { l with heard := l.heard.push n } }
        thread := .looking }

/-- A round of a thread that is not asked to stop is an iteration of its listener, whose callback does not fail. -/
theorem round (p : Platform σ ρ ι) (w : Hearing σ ρ ι) (ht : w.thread = .looking) (hs : w.stopping = false) :
    Relation.ReflTransGen (ThreadStep p) w { w with device := w.device.hearOnce p fun _ => true } := by
  obtain ⟨⟨platform, registers, held, listener, attached⟩, thread, stopping, caller, entered, heard, drawn⟩ := w
  cases ht
  cases hs
  rcases listener with _ | ⟨_ | irq, called⟩
  · exact .refl
  · exact .refl
  · refine .head (.look rfl rfl rfl rfl) ?_
    obtain ⟨receipt, s, hpoll⟩ : ∃ receipt s, p.poll irq platform = (receipt, s) := ⟨_, _, rfl⟩
    cases receipt with
    | notification n =>
      simp only [Attachment.hearOnce, Listener.iterate, hpoll, if_true]
      exact .head (.receive rfl rfl rfl hpoll) (.single (.call (l := ⟨some irq, called⟩) rfl rfl))
    | timeout =>
      simp only [Attachment.hearOnce, Listener.iterate, hpoll]
      exact .single (.timeout rfl rfl rfl hpoll)
    | disconnected =>
      simp only [Attachment.hearOnce, Listener.iterate, hpoll]
      exact .single (.lose (l := ⟨some irq, called⟩) rfl rfl rfl hpoll)

/-! ## Steps of all parties -/

/-- A step of the caller, of the thread, of the notifier, or of something else on the platform. The caller that stops a listener
waits until it has ended. -/
inductive Step (p : Platform σ ρ ι) (line : ι → σ → Option Line) (irq : ι) (w : Hearing σ ρ ι) : Hearing σ ρ ι → Prop where
  | listen (hs : w.stopping = false) (h : w.device.listen.1 = .ok ()) :
      Step p line irq w { w with device := w.device.listen.2, thread := .looking }
  | refused {e : ListenError} (hs : w.stopping = false) (h : w.device.listen.1 = .error e) :
      Step p line irq w { w with device := w.device.listen.2 }
  | takeIrq (hs : w.stopping = false) :
      Step p line irq w { w with device := w.device.takeIrq.2, caller := w.caller ++ w.device.takeIrq.1.toList }
  | unlisten (hs : w.stopping = false) : Step p line irq w { w with stopping := w.device.listener.isSome }
  | thread {w' : Hearing σ ρ ι} (h : ThreadStep p w w') : Step p line irq w w'
  /-- The caller polls a receiver that it took. -/
  | draw {taken : ι} (hc : taken ∈ w.caller) :
      Step p line irq w { w.onPlatform (p.poll taken w.device.platform).2 with
        drawn := w.drawn ++ (p.poll taken w.device.platform).1.toList }
  /-- The notifier raises a notification, and what it delivers enters the line. -/
  | raise {l l' : Line} {notifier : Notifier} {cleaned : Nat} {delivered : Bool} {s : σ}
      (hl : line irq w.device.platform = some l) (hn : l.notifier = some notifier)
      (hraise : l.raise? cleaned = some (delivered, l')) (hs : line irq s = some l') :
      Step p line irq w { w.onPlatform s with
        entered := w.entered ++ if delivered then [⟨notifier.nextSequence, cleaned⟩] else [] }
  /-- Something happens on the platform that the line takes no part in. -/
  | elsewhere {s : σ} (h : line irq s = line irq w.device.platform) : Step p line irq w (w.onPlatform s)

/-! ## The custody of the receiver -/

variable {p : Platform σ ρ ι} {line : ι → σ → Option Line} {irq : ι} {w w' : Hearing σ ρ ι}

/-- The receiver has one holder, its notifier is there, and what entered its line was seen or is pending. -/
structure Kept (line : ι → σ → Option Line) (irq : ι) (w : Hearing σ ρ ι) : Prop where
  holders_eq : w.holders = [irq]
  /-- A listener does not end by itself. -/
  listening : ∀ l, w.device.listener = some l → l.receiver = some irq
  /-- Only a listener is asked to stop. -/
  stopped : w.stopping = true → w.device.listener.isSome = true
  undrawn : w.caller = [] → w.drawn = []
  told : ∃ l, line irq w.device.platform = some l ∧ l.notifier.isSome = true ∧ w.seen ++ l.pending = w.entered

/-- A listener is the only holder. -/
theorem Kept.alone (h : w.Kept line irq) {l : Listener ι} (hl : w.device.listener = some l) :
    w.device.irq = none ∧ w.caller = [] ∧ w.drawn = [] := by
  have hlength := congrArg List.length h.holders_eq
  rw [holders, hl, Option.bind_some, h.listening l hl] at hlength
  simp only [List.length_append, Option.toList_some, List.length_singleton] at hlength
  have hcaller : w.caller = [] := List.eq_nil_of_length_eq_zero (by omega)
  have hdevice : w.device.irq.toList = [] := List.eq_nil_of_length_eq_zero (by omega)
  exact ⟨Option.toList_eq_nil_iff.mp hdevice, hcaller, h.undrawn hcaller⟩

/-- The thread keeps the receiver while it hears, and hands on all it has heard when it ends. -/
theorem Kept.threadStep (hp : p.Polls line) (h : w.Kept line irq) (hstep : ThreadStep p w w') : w'.Kept line irq := by
  obtain ⟨l', hline, hnotifier, htold⟩ := h.told
  obtain ⟨⟨platform, registers, held, listener, attached⟩, thread, stopping, caller, entered, heard, drawn⟩ := w
  cases hstep with
  | look hl hr ht hs =>
    cases hl
    cases ht
    exact ⟨h.holders_eq, h.listening, h.stopped, h.undrawn, l', hline, hnotifier, htold⟩
  | @join l hl ht hs =>
    cases hl
    obtain ⟨hheld, hcaller, hdrawn⟩ := h.alone rfl
    have hreceiver := h.listening l rfl
    have hlooking : thread = .looking := by
      refine ht.resolve_right ?_
      rw [Listener.isFinished, hreceiver]
      exact Bool.false_ne_true
    cases hheld
    cases hcaller
    cases hdrawn
    cases hlooking
    refine ⟨?_, nofun, nofun, fun _ => rfl, l', hline, hnotifier, ?_⟩
    · simp [holders, Attachment.unlisten, Listener.stop, hreceiver]
    · simpa [seen, hearing, Thread.inHand, Attachment.unlisten] using htold
  | @receive l irq' n s hl hr ht hpoll =>
    cases hl
    cases ht
    obtain ⟨-, -, hdrawn⟩ := h.alone rfl
    cases hdrawn
    cases Option.some.inj (hr.symm.trans (h.listening l rfl))
    obtain ⟨-, -, rest, hpending, hnext⟩ := hp.poll_eq hline hnotifier hpoll
    refine ⟨h.holders_eq, h.listening, h.stopped, h.undrawn, _, hnext, hnotifier, ?_⟩
    rw [hpending] at htold
    simpa [seen, hearing, Thread.inHand, onPlatform, Receipt.toList] using htold
  | @timeout l irq' s hl hr ht hpoll =>
    cases hl
    cases ht
    cases Option.some.inj (hr.symm.trans (h.listening l rfl))
    obtain ⟨-, -, rest, hpending, hnext⟩ := hp.poll_eq hline hnotifier hpoll
    refine ⟨h.holders_eq, h.listening, h.stopped, h.undrawn, _, hnext, hnotifier, ?_⟩
    rw [hpending] at htold
    exact htold
  | @lose l irq' s hl hr ht hpoll =>
    cases Option.some.inj (hr.symm.trans (h.listening l hl))
    exact absurd rfl (hp.poll_eq hline hnotifier hpoll).1
  | @call l n hl ht =>
    cases hl
    cases ht
    refine ⟨h.holders_eq, ?_, fun _ => rfl, h.undrawn, l', hline, hnotifier, ?_⟩
    · rintro _ ⟨⟩
      exact h.listening l rfl
    · simpa [seen, hearing, Thread.inHand] using htold

/-- What the device and the caller hold between them is the receiver, if there is no listener. -/
theorem Kept.holders_of_none (h : w.Kept line irq) (hl : w.device.listener = none) :
    w.device.irq.toList ++ w.caller = [irq] := by
  have hholders := h.holders_eq
  rw [holders, hl] at hholders
  simpa using hholders

/-- Without a listener the device has the receiver until the caller takes it. -/
theorem Kept.taken_iff (h : w.Kept line irq) (hl : w.device.listener = none) :
    w.device.irq = none ↔ w.caller = [irq] := by
  have hholders := h.holders_of_none hl
  cases hheld : w.device.irq with
  | none =>
    rw [hheld] at hholders
    exact iff_of_true rfl hholders
  | some receiver =>
    rw [hheld] at hholders
    have hcaller : w.caller = [] := (List.cons.inj hholders).2
    rw [hcaller]
    exact iff_of_false nofun nofun

/-- The others neither take from the line what the thread is to hear, nor hold a receiver while it has one. -/
theorem Kept.step (hp : p.Polls line) (h : w.Kept line irq) (hstep : Step p line irq w w') : w'.Kept line irq := by
  obtain ⟨l', hline, hnotifier, htold⟩ := h.told
  obtain ⟨⟨platform, registers, held, listener, attached⟩, thread, stopping, caller, entered, heard, drawn⟩ := w
  cases hstep with
  | listen hs hlisten =>
    obtain ⟨hnone, receiver, hheld, hdevice⟩ := Attachment.listen_of_ok hlisten
    have hholders := h.holders_of_none hnone
    cases hnone
    cases hheld
    obtain ⟨hreceiver, hcaller⟩ : receiver = irq ∧ caller = [] := by simpa using hholders
    rw [hdevice]
    refine ⟨?_, ?_, fun _ => rfl, h.undrawn, l', hline, hnotifier, htold⟩
    · rw [hreceiver, hcaller]
      rfl
    · rintro _ ⟨⟩
      rw [hreceiver]
      rfl
  | refused hs hlisten =>
    rw [Attachment.listen_of_error hlisten]
    exact h
  | takeIrq hs =>
    refine ⟨?_, h.listening, h.stopped, ?_, l', hline, hnotifier, htold⟩
    · have hholders := h.holders_eq
      cases held with
      | none => simpa [holders, Attachment.takeIrq] using hholders
      | some receiver =>
        have hcons : receiver :: ((listener.bind (·.receiver)).toList ++ caller) = [irq] := hholders
        obtain ⟨hreceiver, hothers⟩ := List.cons.inj hcons
        change (listener.bind (·.receiver)).toList ++ (caller ++ [receiver]) = [irq]
        rw [← List.append_assoc, hothers, hreceiver, List.nil_append]
    · intro hcaller
      exact h.undrawn (List.append_eq_nil_iff.mp hcaller).1
  | unlisten hs => exact ⟨h.holders_eq, h.listening, id, h.undrawn, l', hline, hnotifier, htold⟩
  | thread hthread => exact h.threadStep hp hthread
  | @draw taken hc =>
    have hnone : listener = none := by
      cases listener with
      | none => rfl
      | some l =>
        rw [(h.alone rfl).2.1] at hc
        cases hc
    have htaken : taken = irq := by
      have hmem : taken ∈ held.toList ++ caller := List.mem_append_right _ hc
      rw [h.holders_of_none hnone] at hmem
      exact List.mem_singleton.mp hmem
    cases hnone
    cases htaken
    obtain ⟨-, -, rest, hpending, hnext⟩ := hp.poll_eq hline hnotifier rfl
    refine ⟨h.holders_eq, h.listening, h.stopped, ?_, _, hnext, hnotifier, ?_⟩
    · exact fun hcaller => absurd hcaller (List.ne_nil_of_mem hc)
    · rw [hpending] at htold
      simpa [seen, hearing, onPlatform] using htold
  | raise hl hn hraise hs =>
    cases hline.symm.trans hl
    rw [Line.raise?_eq hn] at hraise
    split at hraise
    · cases hraise
      refine ⟨h.holders_eq, h.listening, h.stopped, h.undrawn, _, hs, rfl, ?_⟩
      exact (List.append_assoc ..).symm.trans (congrArg (· ++ [_]) htold)
    · cases hraise
      refine ⟨h.holders_eq, h.listening, h.stopped, h.undrawn, _, hs, rfl, ?_⟩
      exact htold.trans (List.append_nil entered).symm
  | elsewhere hs =>
    exact ⟨h.holders_eq, h.listening, h.stopped, h.undrawn, l', hs.trans hline, hnotifier, htold⟩

/-- Steps of whichever party keep the receiver with one holder. -/
theorem Kept.steps (hp : p.Polls line) (h : w.Kept line irq) (hrun : Relation.ReflTransGen (Step p line irq) w w') :
    w'.Kept line irq := by
  induction hrun with
  | refl => exact h
  | tail _ hstep ih => exact ih.step hp hstep

/-! ## What the thread does by itself -/

theorem Kept.threadSteps (hp : p.Polls line) (h : w.Kept line irq) (hrun : Relation.ReflTransGen (ThreadStep p) w w') :
    w'.Kept line irq :=
  h.steps hp (hrun.lift id fun _ _ => Step.thread)

/-- A thread calls back with what it has received, and looks whether it was asked to stop. -/
theorem Kept.looks (hp : p.Polls line) (h : w.Kept line irq) (hl : w.device.listener.isSome = true) :
    ∃ w', Relation.ReflTransGen (ThreadStep p) w w' ∧ w'.thread = .looking ∧ w'.stopping = w.stopping ∧
      w'.device.listener.isSome = true ∧ w'.entered = w.entered := by
  obtain ⟨l, hl⟩ := Option.isSome_iff_exists.mp hl
  cases hthread : w.thread with
  | looking => exact ⟨w, .refl, hthread, rfl, by rw [hl]; rfl, rfl⟩
  | calling n => exact ⟨_, .single (.call hl hthread), rfl, rfl, rfl, rfl⟩
  | receiving =>
    obtain ⟨receipt, s, hpoll⟩ : ∃ receipt s, p.poll irq w.device.platform = (receipt, s) := ⟨_, _, rfl⟩
    cases receipt with
    | notification n =>
      refine ⟨_, .head (.receive hl (h.listening l hl) hthread hpoll) (.single (.call hl rfl)), rfl, rfl, rfl, rfl⟩
    | timeout =>
      exact ⟨_, .single (.timeout hl (h.listening l hl) hthread hpoll), rfl, rfl, by rw [onPlatform, hl]; rfl, rfl⟩
    | disconnected =>
      obtain ⟨l', hline, hnotifier, -⟩ := h.told
      exact absurd rfl (hp.poll_eq hline hnotifier hpoll).1

/-- A thread that is not asked to stop calls back with everything that is pending. -/
theorem Kept.hears (hp : p.Polls line) (h : w.Kept line irq) {l : Line} (hline : line irq w.device.platform = some l)
    (hl : w.device.listener.isSome = true) (ht : w.thread = .looking) (hs : w.stopping = false) :
    ∃ w', Relation.ReflTransGen (ThreadStep p) w w' ∧ w'.thread = .looking ∧ w'.entered = w.entered ∧
      w'.seen = w.entered := by
  generalize hpending : l.pending = pending
  induction pending generalizing w l with
  | nil =>
    obtain ⟨l', hline', -, htold⟩ := h.told
    cases hline.symm.trans hline'
    rw [hpending, List.append_nil] at htold
    exact ⟨w, .refl, ht, rfl, htold⟩
  | cons n rest ih =>
    obtain ⟨called, hl⟩ := Option.isSome_iff_exists.mp hl
    obtain ⟨receipt, s, hpoll⟩ : ∃ receipt s, p.poll irq w.device.platform = (receipt, s) := ⟨_, _, rfl⟩
    obtain ⟨l', hline', hnotifier, -⟩ := h.told
    cases hline.symm.trans hline'
    obtain ⟨hopen, hempty, later, hlater, hnext⟩ := hp.poll_eq hline hnotifier hpoll
    have hround := w.round p ht hs
    have hkept := h.threadSteps hp hround
    rw [hpending] at hempty hlater
    cases receipt with
    | notification m =>
      obtain ⟨rfl, rfl⟩ := List.cons.inj hlater
      have honce : w.device.hearOnce p (fun _ => true) =
          { w.device with platform := s, listener := some { called with heard := called.heard.push n } } := by
        simp only [Attachment.hearOnce, hl, Listener.iterate, h.listening called hl, hpoll, if_true]
      rw [honce] at hround hkept
      obtain ⟨w', hrest, ht', hentered, hseen⟩ := ih hkept hnext rfl ht hs rfl
      exact ⟨w', hround.trans hrest, ht', hentered, hseen⟩
    | timeout => exact absurd (hempty rfl) (List.cons_ne_nil n rest)
    | disconnected => exact absurd rfl hopen

/-- A thread that was asked to stop gives the receiver back to the device. -/
theorem Kept.joins (hp : p.Polls line) (h : w.Kept line irq) (hs : w.stopping = true) :
    ∃ w', Relation.ReflTransGen (ThreadStep p) w w' ∧ w'.stopping = false ∧ w'.device.irq = some irq := by
  obtain ⟨v, hrun, ht, hs', hl, -⟩ := h.looks hp (h.stopped hs)
  obtain ⟨l, hl⟩ := Option.isSome_iff_exists.mp hl
  refine ⟨_, hrun.tail (.join hl (.inl ht) (hs'.trans hs)), rfl, ?_⟩
  rw [Attachment.unlisten, hl]
  exact (h.threadSteps hp hrun).listening l hl

/-- However the steps of a caller, of a listener's thread and of the notifier fall between each other, as long as the notifier is
there: the receiver is with the device, its listener or the caller. A listener is refused exactly if another is registered, or the
receiver was taken, and that changes nothing. What entered the line was seen by one listener after the other and then by the caller,
each notification once and in order, and the rest is pending. A thread that is not asked to stop sees the rest by its own steps, and
one that is asked to stop gives the receiver back. -/
theorem heard_in_order (hp : p.Polls line) {s : σ} {a : Attachment σ ρ ι} {l : Line}
    (hattach : Attachment.attach p s = .ok a) (hirq : a.irq = some irq) (hline : line irq a.platform = some l)
    (hnotifier : l.notifier.isSome = true)
    (hrun : Relation.ReflTransGen (Step p line irq) { device := a, entered := l.pending } w) :
    w.holders = [irq] ∧
      (w.device.listen.1 = .error .alreadyListening ↔ w.device.listener.isSome = true) ∧
      (w.device.listen.1 = .error .noReceiver ↔ w.device.listener = none ∧ w.caller = [irq]) ∧
      (∀ e, w.device.listen.1 = .error e → w.device.listen.2 = w.device) ∧
      (∃ l', line irq w.device.platform = some l' ∧ w.seen ++ l'.pending = w.entered) ∧
      (w.device.listener.isSome = true → w.stopping = false → ∃ w', Relation.ReflTransGen (ThreadStep p) w w' ∧
        w'.thread = .looking ∧ w'.entered = w.entered ∧ w'.seen = w.entered) ∧
      (w.stopping = true → ∃ w', Relation.ReflTransGen (ThreadStep p) w w' ∧ w'.stopping = false ∧
        w'.device.irq = some irq) := by
  obtain ⟨-, hfresh⟩ := Attachment.fresh_of_attach hattach
  have hstart : Kept line irq { device := a, entered := l.pending } := by
    refine ⟨?_, ?_, nofun, fun _ => rfl, l, hline, hnotifier, ?_⟩
    · rw [holders, hirq, hfresh]
      rfl
    · rw [hfresh]
      exact nofun
    · rw [seen, hearing, hfresh]
      rfl
  have h := hstart.steps hp hrun
  obtain ⟨l', hline', -, htold⟩ := h.told
  obtain ⟨hregistered, htaken⟩ := w.device.listen_error_iff
  refine ⟨h.holders_eq, hregistered, ?_, fun _ => Attachment.listen_of_error, ⟨l', hline', htold⟩, ?_, h.joins hp⟩
  · rw [htaken]
    exact and_congr_right h.taken_iff
  · intro hl hs
    obtain ⟨v, hfirst, ht, hs', hl', hentered⟩ := h.looks hp hl
    have hkept := h.threadSteps hp hfirst
    obtain ⟨l'', hline'', -⟩ := hkept.told
    obtain ⟨w', hthen, ht', hentered', hseen⟩ := hkept.hears hp hline'' hl' ht (hs'.trans hs)
    exact ⟨w', hfirst.trans hthen, ht', hentered'.trans hentered, hseen.trans hentered⟩

end Hearing

/-! ## Simulated devices -/

namespace Simulated

/-- The line of device `i`. -/
def line? (i : Nat) (s : Simulated) : Option Line := s.devices[i]?.map (·.line)

/-- The simulated platform polls as it should. -/
theorem platform_polls : platform.Polls line? := by
  intro i s l h
  obtain ⟨config, memory, failAt, devices, mapped, irq, log⟩ := s
  obtain ⟨d, hd, rfl⟩ := Option.map_eq_some_iff.mp h
  obtain ⟨hi, rfl⟩ := Array.getElem?_eq_some_iff.mp hd
  simp [platform, platformWith, onLine, onMachine, line?, hi]

/-- The notifier of device `i` raises a notification. -/
def raised (i cleaned : Nat) (s : Simulated) : Simulated :=
  (s.onLine i () fun line => ((), ((line.raise? cleaned).map Prod.snd).getD line)).2

/-- A notification that the thread receives when it has been asked to stop is heard, and one that comes after the end of the listener
is pending for the caller who takes the receiver. -/
theorem heard_in_order_stopping :
    let s : Simulated := { config := { memorySize := 1 }, memory := .zeros 1 }
    ∃ a w, Attachment.attach platform s = .ok a ∧
      Relation.ReflTransGen (Hearing.Step platform line? 0) { device := a, entered := [] } w ∧
      w.heard = [⟨1, 3⟩] ∧ w.caller = [0] ∧ w.holders = [0] ∧ ∃ l', line? 0 w.device.platform = some l' ∧
        w.seen ++ l'.pending = w.entered ∧ w.entered = [⟨1, 3⟩, ⟨2, 4⟩] := by
  intro s
  let mapped : Simulated :=
    { s with devices := #[.ofConfig s.config], mapped := some 0, log := Stage.order.map .acquired }
  let a : SimulatedDevice := { platform := mapped, registers := 0, irq := some 0 }
  have hattach : Attachment.attach platform s = .ok a := rfl
  have hlisten : Relation.ReflTransGen (Hearing.Step platform line? 0) { device := a, entered := [] } _ :=
    .single (.listen rfl rfl)
  have hfirst := hlisten.tail (.raise (s := raised 0 3 mapped) rfl rfl rfl rfl)
  have hlook := hfirst.tail (.thread (.look rfl rfl rfl rfl))
  have hunlisten := hlook.tail (.unlisten rfl)
  have hreceive := hunlisten.tail (.thread (.receive rfl rfl rfl rfl))
  have hcall := hreceive.tail (.thread (.call rfl rfl))
  have hjoin := hcall.tail (.thread (.join rfl (.inl rfl) rfl))
  have htake := hjoin.tail (.takeIrq rfl)
  have hsecond := htake.tail (.raise (s := raised 0 4 (platform.poll 0 (raised 0 3 mapped)).2) rfl rfl rfl rfl)
  obtain ⟨hholders, -, -, -, ⟨l', hline, htold⟩, -⟩ := Hearing.heard_in_order platform_polls hattach rfl rfl rfl hsecond
  exact ⟨a, _, hattach, hsecond, rfl, rfl, hholders, l', hline, htold, rfl⟩

end Simulated

end VirtineCleaning

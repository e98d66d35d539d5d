/-!
# Notifications

The device tells the host about cleaned virtines over a line that holds a bounded number of pending notifications.
Raising never waits: on a full line the notification is coalesced into those already pending and only counted, and
once the receiver is gone it is neither delivered nor counted.
-/

namespace VirtineCleaning

/-- Word of a completed batch; gaps in `sequence` are notifications that were coalesced. -/
structure Notification where
  sequence : Nat
  cleaned : Nat
deriving DecidableEq, Repr

/-- The device's end of a line. -/
structure Notifier where
  nextSequence : Nat := 1
  coalesced : Nat := 0
deriving DecidableEq, Repr

/-- A line between a device and its host: what is pending, and which of its two ends still exist. -/
structure Line where
  capacity : Nat
  pending : List Notification := []
  notifier : Option Notifier := some {}
  received : Bool := true
deriving DecidableEq, Repr

/-- What a bounded wait on a line answers. -/
inductive Receipt where
  | notification (n : Notification)
  /-- Nothing is pending, but something may still come. -/
  | timeout
  /-- Nothing is pending and the notifier is gone. -/
  | disconnected
deriving DecidableEq, Repr

namespace Line

/-- A fresh line for at most `capacity` pending notifications. -/
def ofCapacity (capacity : Nat) : Line := { capacity }

/-- The notifications counted as coalesced; `none` once the notifier is gone. -/
def coalesced? (l : Line) : Option Nat := l.notifier.map (·.coalesced)

/-- Raises a notification of `cleaned` virtines and answers whether it was delivered; `none` without a notifier. -/
def raise? (l : Line) (cleaned : Nat) : Option (Bool × Line) :=
  l.notifier.map fun notifier =>
    let advanced := { notifier with nextSequence := notifier.nextSequence + 1 }
    if !l.received then (false, { l with notifier := some advanced })
    else if l.pending.length < l.capacity then
      (true, { l with
        pending := l.pending ++ [⟨notifier.nextSequence, cleaned⟩]
        notifier := some advanced })
    else (false, { l with notifier := some { advanced with coalesced := notifier.coalesced + 1 } })

/-- Takes the oldest pending notification. -/
def receive (l : Line) : Option Notification × Line :=
  match l.pending with
  | [] => (none, l)
  | n :: rest => (some n, { l with pending := rest })

/-- Takes every pending notification, oldest first. -/
def drain (l : Line) : List Notification × Line := (l.pending, { l with pending := [] })

/-- Takes the oldest pending notification, or tells whether another may come. -/
def poll (l : Line) : Receipt × Line :=
  match l.receive with
  | (some n, l) => (.notification n, l)
  | (none, l) => (if l.notifier.isSome then .timeout else .disconnected, l)

/-- The notifier goes away; what is pending can still be received. -/
def closeNotifier (l : Line) : Line := { l with notifier := none }

/-- The receiver goes away, and what is pending with it. -/
def closeReceiver (l : Line) : Line := { l with pending := [], received := false }

end Line

end VirtineCleaning

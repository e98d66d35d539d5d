import VirtineCleaning.Notification

/-!
# Listeners

A listener holds a receiver and hands every notification that arrives to a callback, one in each iteration. It ends
when the notifier is gone and nothing is pending any more, or when its callback fails; the receiver is then lost. A
listener that is stopped before gives its receiver back.
-/

namespace VirtineCleaning

/-- A listener on a receiver `ι`, and the notifications its callback was given so far. -/
structure Listener (ι : Type) where
  /-- The receiver, until the listener ends. -/
  receiver : Option ι
  heard : Array Notification := #[]

namespace Listener

variable {ι σ : Type}

/-- A listener that has heard nothing yet. -/
def start (receiver : ι) : Listener ι := { receiver := some receiver }

/-- The listener has ended. -/
def isFinished (l : Listener ι) : Bool := l.receiver.isNone

/-- Stops the listener, which gives its receiver back unless it had ended. -/
def stop (l : Listener ι) : Option ι := l.receiver

/-- One iteration: waits for a notification and hands it to the callback, which may fail. -/
def iterate (poll : ι → σ → Receipt × σ) (drop : ι → σ → σ) (callback : Notification → Bool) (l : Listener ι) (s : σ) :
    Listener ι × σ :=
  match l.receiver with
  | none => (l, s)
  | some receiver =>
    match poll receiver s with
    | (.notification n, s) =>
      let heard := l.heard.push n
      if callback n then ({ l with heard }, s) else ({ receiver := none, heard }, drop receiver s)
    | (.timeout, s) => (l, s)
    | (.disconnected, s) => ({ l with receiver := none }, drop receiver s)

/-- A number of iterations. -/
def iterateN (poll : ι → σ → Receipt × σ) (drop : ι → σ → σ) (callback : Notification → Bool) :
    Nat → Listener ι → σ → Listener ι × σ
  | 0, l, s => (l, s)
  | n + 1, l, s =>
    match l.iterate poll drop callback s with
    | (l, s) => iterateN poll drop callback n l s

/-- The listener runs on a line until nothing is left for it to do. -/
def settle (callback : Notification → Bool) (l : Listener Unit) (line : Line) : Listener Unit × Line :=
  l.iterateN (fun _ => Line.poll) (fun _ => Line.closeReceiver) callback (line.pending.length + 1) line

end Listener

end VirtineCleaning

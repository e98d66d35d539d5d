import Mathlib.Algebra.GroupWithZero.Nat
import VirtineCleaning.Memory.Dense
import VirtineCleaning.Proofs.Device.Trail
import VirtineCleaning.Proofs.Notification

/-!
# The notifications of a run

A batch is complete when as many virtines were cleaned since the last notification as the batch factor asks for at that moment, and
the factor may be written between any two of them, whole or by halves. Three places keep count: the device of the virtines cleaned
since, its counters of all that was cleaned and raised, and the notifier of the next number. They stay in step over every run
(`notifications_of_run`): the notifications raised are numbered without a gap, and what they account for, with what still waits for
its batch to be complete, is all that was cleaned. What the receiver gets is part of what was raised, in order, and the rest is
counted as coalesced.
-/

namespace VirtineCleaning

/-! ## Raising one notification -/

/-- A notification that is raised takes the next number. It is delivered behind what is pending, or it is counted as coalesced,
unless the receiver is gone. -/
theorem Line.raise?_of_notifier {l : Line} {notifier : Notifier} (hn : l.notifier = some notifier) (cleaned : Nat) :
    ∃ delivered line coalesced, l.raise? cleaned = some (delivered, line) ∧
      line.notifier = some ⟨notifier.nextSequence + 1, coalesced⟩ ∧ line.received = l.received ∧
      (line.pending = l.pending ++ [⟨notifier.nextSequence, cleaned⟩] ∧ coalesced = notifier.coalesced ∨
        line.pending = l.pending ∧ coalesced = notifier.coalesced + if l.received then 1 else 0) := by
  rw [raise?_eq hn]
  split
  · exact ⟨true, _, notifier.coalesced, rfl, rfl, rfl, Or.inl ⟨rfl, rfl⟩⟩
  · exact ⟨false, _, _, rfl, rfl, rfl, Or.inr ⟨rfl, rfl⟩⟩

/-- What the line of a device makes of a notification. -/
theorem Device.line_notify (d : Device) {raised : Option (Bool × Line)} (h : d.line.raise? d.cleanedCount = raised) :
    d.notify.line = (raised.map Prod.snd).getD d.line := by
  subst h
  unfold notify
  cases d.line.raise? d.cleanedCount <;> rfl

/-- A line on which notifications are raised, one after the other, each of so many virtines. Without a notifier it stays as it is. -/
def Line.raiseAll (l : Line) (sizes : List Nat) : Line := sizes.foldl (fun l cleaned => ((l.raise? cleaned).map Prod.snd).getD l) l

theorem Line.raiseAll_append (l : Line) (sizes more : List Nat) :
    l.raiseAll (sizes ++ more) = (l.raiseAll sizes).raiseAll more := List.foldl_append

/-- The ways of finishing a virtine: its batch stays incomplete, or it is complete and a notification is raised. -/
inductive Device.FinishCase (d : Device) (a : Address) : Device → Prop where
  | waits (h : d.cleanedCount + 1 < d.batchSize) : FinishCase d a (d.post a)
  | raises (h : d.batchSize ≤ d.cleanedCount + 1) : FinishCase d a (d.post a).notify

/-- A virtine that is finished completes its batch, or waits for the others of it. -/
theorem Device.finish_case (d : Device) (a : Address) : FinishCase d a (d.finish a) := by
  have hcount : (d.post a).cleanedCount = d.cleanedCount + 1 := rfl
  have hsize : (d.post a).batchSize = d.batchSize := rfl
  unfold finish notifyIfComplete
  rw [hcount, hsize]
  by_cases h : d.batchSize ≤ d.cleanedCount + 1
  · rw [if_pos h]
    exact .raises h
  · rw [if_neg h]
    exact .waits (Nat.lt_of_not_le h)

theorem Device.one_le_batchSize (d : Device) : 1 ≤ d.batchSize := Nat.le_max_left _ _

namespace Machine

variable {μ : Type} [VirtineMemory μ]

/-- The notification that is raised from one machine to the next, if the counter of notifications tells of one: it takes the number
that the notifier has next, and accounts for the virtines cleaned since the last one, one more included. -/
def raisedTo? (m n : Machine μ) : Option Notification :=
  if n.device.stats.notifications = m.device.stats.notifications then none
  else m.device.line.notifier.map fun notifier => ⟨notifier.nextSequence, m.device.cleanedCount + 1⟩

/-- The notification that a step of cleaning raises. It is what the step hands to the line (`line_cleanNext`). -/
def raised? (m : Machine μ) : Option Notification := m.raisedTo? m.cleanNext.2

/-- The ways of a step of cleaning, as far as notifications go: it cleans nothing, leaves a batch incomplete, or completes it. -/
inductive NoticeCase (m : Machine μ) : Machine μ → Option Notification → Prop where
  | idle {n : Machine μ} (hd : ∃ ready complete isStalled copyFailures stalls, n.device =
        { m.device with
          ready, complete, isStalled
          stats := { m.device.stats with copyFailures, stalls } })
      (hc : ∀ a, m.cleanNext.1 ≠ .cleaned a) : NoticeCase m n none
  | waits {a : Address} {ready : VirtineQueue} {memory : μ} (hc : m.cleanNext.1 = .cleaned a)
      (hs : m.device.isStopping = false) (h : m.device.cleanedCount + 1 < m.device.batchSize) :
      NoticeCase m ⟨(m.device.withReady ready).post a, memory⟩ none
  | raises {a : Address} {ready : VirtineQueue} {memory : μ} (hc : m.cleanNext.1 = .cleaned a)
      (hs : m.device.isStopping = false) (h : m.device.batchSize ≤ m.device.cleanedCount + 1) :
      NoticeCase m ⟨((m.device.withReady ready).post a).notify, memory⟩
        (m.device.line.notifier.map fun notifier => ⟨notifier.nextSequence, m.device.cleanedCount + 1⟩)

theorem notice_case (m : Machine μ) : NoticeCase m m.cleanNext.2 m.raised? := by
  have hcase := m.cleanNext_case
  unfold raised? raisedTo?
  generalize hnext : m.cleanNext = next at hcase
  cases hcase with
  | stopped =>
    rw [if_pos (by rfl)]
    exact .idle ⟨_, _, _, _, _, rfl⟩ (by simp [hnext])
  | drained =>
    rw [if_pos (by rfl)]
    exact .idle ⟨_, _, _, _, _, rfl⟩ (by simp [hnext])
  | stalled =>
    have hstall : ∃ isStalled stalls, (m.mapDevice Device.stall).device =
        { m.device with isStalled, stats := { m.device.stats with stalls } } := by
      simp only [mapDevice, Device.stall]
      split
      · exact ⟨_, _, rfl⟩
      · exact ⟨_, _, rfl⟩
    obtain ⟨isStalled, stalls, hstall⟩ := hstall
    rw [if_pos (by rw [hstall])]
    exact .idle ⟨_, _, _, _, _, hstall⟩ (by simp [hnext])
  | copyFailed =>
    rw [if_pos (by rfl)]
    exact .idle ⟨_, _, _, _, _, rfl⟩ (by simp [hnext])
  | @cleaned a ready memory hs =>
    have hfinish := (m.device.withReady ready).finish_case a
    have hclean : m.cleanNext.1 = .cleaned a := by rw [hnext]
    generalize (m.device.withReady ready).finish a = d at hfinish
    cases hfinish with
    | waits h =>
      rw [if_pos (by rfl)]
      exact .waits hclean hs h
    | raises h =>
      have hcount : ((m.device.withReady ready).post a).notify.stats.notifications =
          m.device.stats.notifications + 1 := rfl
      rw [if_neg (by dsimp only; omega)]
      exact .raises hclean hs h

/-- A step of cleaning raises on the line of its device what it is said to raise, and does nothing else to the line. -/
theorem line_cleanNext (m : Machine μ) :
    m.cleanNext.2.device.line = m.device.line.raiseAll (m.raised?.toList.map (·.cleaned)) := by
  have hcase := m.notice_case
  generalize m.cleanNext.2 = next, m.raised? = notice at hcase
  cases hcase with
  | idle hd =>
    obtain ⟨_, _, _, _, _, hd⟩ := hd
    rw [hd]
    rfl
  | waits => rfl
  | @raises a ready =>
    have hline := ((m.device.withReady ready).post a).line_notify rfl
    have hcount : ((m.device.withReady ready).post a).cleanedCount = m.device.cleanedCount + 1 := rfl
    rw [hcount] at hline
    cases hn : m.device.line.notifier with
    | none =>
      have hraise : m.device.line.raise? (m.device.cleanedCount + 1) = none := by rw [Line.raise?, hn, Option.map_none]
      exact hline.trans (congrArg (fun raised => (raised.map Prod.snd).getD m.device.line) hraise)
    | some notifier => exact hline

/-- A notification that is raised accounts for a whole batch, as large as it has to be at that moment. -/
theorem batchSize_le_of_raised {m : Machine μ} {n : Notification} (h : m.raised? = some n) :
    m.device.batchSize ≤ n.cleaned := by
  have hcase := m.notice_case
  rw [h] at hcase
  generalize m.cleanNext.2 = next, hn : some n = notice at hcase
  cases hcase with
  | idle => cases hn
  | waits => cases hn
  | raises _ _ hle =>
    obtain ⟨notifier, -, rfl⟩ := Option.map_eq_some_iff.1 hn.symm
    exact hle

/-- After a virtine was cleaned the next batch is incomplete. -/
theorem cleanedCount_lt_of_cleaned {m : Machine μ} {a : Address} (h : m.cleanNext.1 = .cleaned a) :
    m.cleanNext.2.device.cleanedCount < m.cleanNext.2.device.batchSize := by
  have hcase := m.notice_case
  generalize m.cleanNext.2 = next, m.raised? = notice at hcase
  cases hcase with
  | idle _ hc => exact absurd h (hc a)
  | waits _ _ hlt => exact hlt
  | raises => exact Nat.lt_of_lt_of_le Nat.one_pos (Device.one_le_batchSize _)

end Machine

/-! ## What has nothing to do with notifications -/

/-- One device differs from another in nothing that notifications depend on. -/
structure Device.Unnoticed (d e : Device) : Prop where
  cleanedCount : e.cleanedCount = d.cleanedCount
  cleaned : e.stats.cleaned = d.stats.cleaned
  notifications : e.stats.notifications = d.stats.notifications
  coalesced : e.stats.notificationsCoalesced = d.stats.notificationsCoalesced
  line : e.line = d.line
  phase : e.phase = d.phase
  isStopping : e.isStopping = d.isStopping

namespace Device

/-- A reclaim changes nothing that notifications depend on. -/
theorem unnoticed_dequeue (d : Device) : d.Unnoticed d.dequeue.2 := by
  have hcase := d.dequeue_case
  generalize d.dequeue = next, d.dequeueEvents = events at hcase
  cases hcase <;> exact ⟨rfl, rfl, rfl, rfl, rfl, rfl, rfl⟩

/-- Nor does any other read. -/
theorem unnoticed_read (d : Device) (offset : Word) (length : Nat) : d.Unnoticed (d.read offset length).2 := by
  have hcase := d.read_case offset length
  generalize (d.read offset length).2 = next, d.readEvents offset length = events at hcase
  cases hcase with
  | reclaims => exact { d.unnoticed_dequeue with }
  | looks => exact ⟨rfl, rfl, rfl, rfl, rfl, rfl, rfl⟩

/-- Nor does a submission, accepted or not. -/
theorem unnoticed_enqueue (d : Device) (w : Word) : d.Unnoticed (d.enqueue w) := by
  have hcase := d.enqueue_case w
  generalize d.enqueue w = next, d.submitEvents w = events at hcase
  cases hcase <;> exact ⟨rfl, rfl, rfl, rfl, rfl, rfl, rfl⟩

/-- Nor does a ring. -/
theorem unnoticed_ringDoorbell (d : Device) : d.Unnoticed d.ringDoorbell := by
  unfold ringDoorbell
  split <;> exact ⟨rfl, rfl, rfl, rfl, rfl, rfl, rfl⟩

/-- Nor does any write. -/
theorem unnoticed_write (d : Device) (offset : Word) (bytes : List UInt8) :
    d.Unnoticed (d.write offset bytes).2 := by
  have hcase := d.write_case offset bytes
  generalize d.submission? offset bytes = submission, (d.write offset bytes).2 = next,
    d.writeEvents offset bytes = events at hcase
  cases hcase with
  | submits w staged => exact { unnoticed_enqueue { d with stagedReadyTail := staged } w with }
  | rings => exact d.unnoticed_ringDoorbell
  | sets => exact ⟨rfl, rfl, rfl, rfl, rfl, rfl, rfl⟩

end Device

/-! ## Accounts -/

/-- The notifications that were coalesced, as the notifier counts them while it exists. -/
def Device.coalesced (d : Device) : Nat := d.line.coalesced?.getD d.stats.notificationsCoalesced

/-- As long as there is a notifier, nobody else counts them. -/
theorem Device.coalesced_of_notifier {d e : Device} (h : e.line.notifier = d.line.notifier) (hn : d.line.notifier ≠ none) :
    e.coalesced = d.coalesced := by
  obtain ⟨notifier, hsome⟩ := Option.ne_none_iff_exists'.1 hn
  rw [coalesced, coalesced, Line.coalesced?, Line.coalesced?, h, hsome]
  rfl

/-- The counters as they are told are those of the device but for this one. -/
theorem Device.counters_eq (d : Device) : d.counters = { d.stats with notificationsCoalesced := d.coalesced } := by
  unfold counters coalesced
  split
  · rename_i hn
    rw [hn, Option.getD_some]
  · rename_i hn
    rw [hn, Option.getD_none]

theorem Device.counters_notificationsCoalesced (d : Device) : d.counters.notificationsCoalesced = d.coalesced :=
  congrArg Stats.notificationsCoalesced d.counters_eq

/-- What was raised and what was received agree with the counts of a device: its own, those of its counters and those of its
notifier. -/
structure Device.Accounts (d : Device) (raised received : List Notification) : Prop where
  /-- What was cleaned was accounted for by a notification, or waits for its batch to be complete. -/
  cleaned_eq : (raised.map (·.cleaned)).sum + d.cleanedCount = d.stats.cleaned
  sequence_eq : raised.map (·.sequence) = List.range' 1 d.stats.notifications
  delivered : (received ++ d.line.pending).Sublist raised
  /-- As long as the receiver is there, what was not delivered was coalesced. -/
  coalesced_eq : d.line.received = true →
    received.length + d.line.pending.length + d.coalesced = raised.length
  nextSequence_eq : ∀ notifier, d.line.notifier = some notifier → notifier.nextSequence = d.stats.notifications + 1
  isStopping_of_closed : d.line.notifier = none → d.isStopping = true
  isStopping_of_stopping : d.phase = .stopping → d.isStopping = true

namespace Device.Accounts

variable {d : Device} {raised received : List Notification}

/-- A new device has raised nothing. -/
theorem fresh (batchFactor : Word) (capacity : Nat) :
    Device.Accounts { batchFactor, line := .ofCapacity capacity } [] [] where
  cleaned_eq := rfl
  sequence_eq := rfl
  delivered := .slnil
  coalesced_eq _ := rfl
  nextSequence_eq notifier hn := by
    cases hn
    rfl
  isStopping_of_closed := nofun
  isStopping_of_stopping := nofun

/-- The accounts stay where nothing changes that notifications depend on. -/
theorem of_unnoticed {e : Device} (ha : d.Accounts raised received) (hu : d.Unnoticed e) :
    e.Accounts raised received where
  cleaned_eq := by rw [hu.cleanedCount, hu.cleaned, ha.cleaned_eq]
  sequence_eq := by rw [hu.notifications, ha.sequence_eq]
  delivered := by
    rw [hu.line]
    exact ha.delivered
  coalesced_eq := by
    have hcoalesced : e.coalesced = d.coalesced := by rw [coalesced, coalesced, hu.line, hu.coalesced]
    rw [hcoalesced, hu.line]
    exact ha.coalesced_eq
  nextSequence_eq := by
    rw [hu.line, hu.notifications]
    exact ha.nextSequence_eq
  isStopping_of_closed := by
    rw [hu.line, hu.isStopping]
    exact ha.isStopping_of_closed
  isStopping_of_stopping := by
    rw [hu.phase, hu.isStopping]
    exact ha.isStopping_of_stopping

/-- Giving up the notifier keeps what it counted. -/
theorem closeNotifications (ha : d.Accounts raised received) (hs : d.isStopping = true) :
    d.closeNotifications.Accounts raised received := by
  have hcleaned : d.counters.cleaned = d.stats.cleaned := by
    unfold counters
    split <;> rfl
  have hnotifications : d.counters.notifications = d.stats.notifications := by
    unfold counters
    split <;> rfl
  have hsum := ha.cleaned_eq
  have hsequence := ha.sequence_eq
  have hcount := ha.coalesced_eq
  rw [← hcleaned] at hsum
  rw [← hnotifications] at hsequence
  rw [← counters_notificationsCoalesced] at hcount
  exact ⟨hsum, hsequence, ha.delivered, hcount, nofun, fun _ => hs, fun _ => hs⟩

/-- A virtine that leaves its batch incomplete waits for it. -/
theorem post (ha : d.Accounts raised received) (ready : VirtineQueue) (a : Address) :
    ((d.withReady ready).post a).Accounts raised received := by
  have hsum := ha.cleaned_eq
  exact { ha with
    cleaned_eq := by
      change _ + (d.cleanedCount + 1) = d.stats.cleaned + 1
      omega }

/-- A batch that is complete is accounted for by the notification raised, which takes the next number. -/
theorem notify (ha : d.Accounts raised received) (hs : d.isStopping = false) (ready : VirtineQueue) (a : Address) :
    ∃ notice, d.line.notifier.map (fun notifier => (⟨notifier.nextSequence, d.cleanedCount + 1⟩ : Notification)) =
        some notice ∧
      ((d.withReady ready).post a).notify.Accounts (raised ++ [notice]) received := by
  cases hn : d.line.notifier with
  | none =>
    have hstop := ha.isStopping_of_closed hn
    rw [hs] at hstop
    cases hstop
  | some notifier =>
    obtain ⟨_, line, count, hraise, hnotifier, hreceived, hpending⟩ :=
      Line.raise?_of_notifier hn (d.cleanedCount + 1)
    have hline : ((d.withReady ready).post a).notify.line = line := ((d.withReady ready).post a).line_notify hraise
    have hnext : notifier.nextSequence = d.stats.notifications + 1 := ha.nextSequence_eq notifier hn
    have hsum := ha.cleaned_eq
    have hdelivered := ha.delivered
    have hcount := ha.coalesced_eq
    have hbefore : d.coalesced = notifier.coalesced := by
      rw [Device.coalesced, Line.coalesced?, hn]
      rfl
    have hafter : ((d.withReady ready).post a).notify.coalesced = count := by
      rw [Device.coalesced, Line.coalesced?, hline, hnotifier]
      rfl
    refine ⟨⟨notifier.nextSequence, d.cleanedCount + 1⟩, rfl, ?_, ?_, ?_, ?_, ?_, ?_, ha.isStopping_of_stopping⟩
    · rw [List.map_append, List.sum_append, List.map_singleton, List.sum_singleton]
      change _ + (d.cleanedCount + 1) + 0 = d.stats.cleaned + 1
      omega
    · change _ = List.range' 1 (d.stats.notifications + 1)
      rw [List.map_append, ha.sequence_eq, List.map_singleton, hnext, List.range'_concat, Nat.one_mul, Nat.add_comm 1]
    · rw [hline]
      rcases hpending with ⟨hpending, -⟩ | ⟨hpending, -⟩
      · rw [hpending, ← List.append_assoc]
        exact hdelivered.append_right _
      · rw [hpending]
        exact hdelivered.trans (List.sublist_append_left _ _)
    · rw [hafter, hline, hreceived]
      intro hr
      have hcount := hcount hr
      rw [hbefore] at hcount
      rcases hpending with ⟨hpending, rfl⟩ | ⟨hpending, rfl⟩
      · rw [hpending, List.length_append, List.length_append, List.length_singleton]
        omega
      · rw [hpending, if_pos hr, List.length_append, List.length_singleton]
        omega
    · rw [hline, hnotifier]
      intro next hsome
      cases hsome
      change notifier.nextSequence + 1 = d.stats.notifications + 1 + 1
      rw [hnext]
    · rw [hline, hnotifier]
      exact fun hnone => absurd hnone (Option.some_ne_none _)

end Device.Accounts

namespace Machine

variable {μ : Type} [VirtineMemory μ] {m : Machine μ} {raised received : List Notification}

/-- A step of cleaning keeps the accounts, with what it raises. -/
theorem accounts_cleanNext (ha : m.device.Accounts raised received) :
    m.cleanNext.2.device.Accounts (raised ++ m.raised?.toList) received := by
  have hcase := m.notice_case
  generalize m.cleanNext.2 = next, m.raised? = notice at hcase
  cases hcase with
  | idle hd =>
    obtain ⟨_, _, _, _, _, hd⟩ := hd
    rw [hd, Option.toList_none, List.append_nil]
    exact { ha with }
  | waits =>
    rw [Option.toList_none, List.append_nil]
    exact ha.post _ _
  | @raises a ready _ _ hs =>
    obtain ⟨notice, hsome, hkept⟩ := ha.notify hs ready a
    rw [hsome]
    exact hkept

/-- A longer trail raises what its last step raises behind the others. -/
theorem filterMap_concat (t : List (Machine μ)) (m : Machine μ) :
    (t ++ [m]).filterMap raised? = t.filterMap raised? ++ m.raised?.toList := by
  rw [List.filterMap_append, List.filterMap_cons]
  cases m.raised? <;> rfl

/-- The operations of a device keep the accounts. -/
theorem keeps_accounts (received : List Notification) :
    Keeps fun (m : Machine μ) t => m.device.Accounts (t.filterMap raised?) received where
  read offset length ha := ha.of_unnoticed (Device.unnoticed_read _ offset length)
  write offset bytes ha := ha.of_unnoticed (Device.unnoticed_write _ offset bytes)
  signal ha := ha.of_unnoticed (Device.unnoticed_ringDoorbell _)
  requestStop ha := { ha with isStopping_of_closed := fun _ => rfl, isStopping_of_stopping := fun _ => rfl }
  beginPass ha := { ha with }
  cleanNext ha := by
    rw [filterMap_concat]
    exact accounts_cleanNext ha
  endPass ha := { ha with }
  movePhase _ _ hstop ha := { ha with isStopping_of_stopping := hstop }
  close hp ha := { ha.closeNotifications (ha.isStopping_of_stopping hp) with isStopping_of_stopping := nofun }

/-- A batch is filled one virtine after the other, so while the batch factor stays what it is, each is exactly as large as it has to
be. -/
theorem keeps_exact (batchFactor : Word) :
    Keeps fun (m : Machine μ) t => (∀ n ∈ t, n.device.batchFactor = batchFactor) →
      m.device.cleanedCount < max 1 batchFactor.toNat ∧
        ∀ notice ∈ t.filterMap raised?, notice.cleaned = max 1 batchFactor.toNat where
  read offset length h hsame := by
    rw [mapDevice, (Device.unnoticed_read _ offset length).cleanedCount]
    exact h hsame
  write offset bytes h hsame := by
    rw [mapDevice, (Device.unnoticed_write _ offset bytes).cleanedCount]
    exact h hsame
  signal h hsame := by
    rw [mapDevice, (Device.unnoticed_ringDoorbell _).cleanedCount]
    exact h hsame
  requestStop h := h
  beginPass h := h
  endPass h := h
  movePhase _ _ _ h := h
  close _ h := h
  cleanNext {m t} h hsame := by
    obtain ⟨hlt, hall⟩ := h fun n hn => hsame n (List.mem_append_left _ hn)
    have hfactor := hsame m (List.mem_append_right _ List.mem_cons_self)
    have hsize : m.device.batchSize = max 1 batchFactor.toNat := by rw [Device.batchSize, hfactor]
    have hcase := m.notice_case
    rw [filterMap_concat]
    generalize m.cleanNext.2 = next, m.raised? = notice at hcase
    cases hcase with
    | idle hd =>
      obtain ⟨_, _, _, _, _, hd⟩ := hd
      rw [hd, Option.toList_none, List.append_nil]
      exact ⟨hlt, hall⟩
    | waits _ _ hwaits =>
      rw [Option.toList_none, List.append_nil]
      exact ⟨hsize ▸ hwaits, hall⟩
    | raises _ _ hraises =>
      have hzero : 0 < max 1 batchFactor.toNat := Nat.lt_of_lt_of_le Nat.one_pos (Nat.le_max_left _ _)
      refine ⟨hzero, ?_⟩
      intro notice hmem
      rcases List.mem_append.1 hmem with hmem | hmem
      · exact hall notice hmem
      · -- the virtine that completes the batch is the first that could
        obtain ⟨notifier, -, rfl⟩ := Option.map_eq_some_iff.1 (Option.mem_toList.1 hmem)
        change m.device.cleanedCount + 1 = _
        omega

end Machine

/-! ## The receiver -/

/-- What the receiver of a line does. -/
inductive ReceiverUse where
  | receive
  | poll
  | drain
  | drop
deriving DecidableEq, Repr

/-- What a use of the receiver takes off a line, and the line that it leaves. -/
def Line.use (l : Line) : ReceiverUse → List Notification × Line
  | .receive => (l.receive.1.toList, l.receive.2)
  | .poll =>
    match l.poll with
    | (.notification n, l) => ([n], l)
    | (_, l) => ([], l)
  | .drain => l.drain
  | .drop => ([], l.closeReceiver)

/-- The ways of a use: it takes the oldest of what is pending, or the receiver goes away. -/
inductive Line.UseCase (l : Line) : List Notification × Line → Prop where
  | takes (taken : List Notification) {rest : List Notification} (h : l.pending = taken ++ rest) :
      UseCase l (taken, { l with pending := rest })
  | drops : UseCase l ([], { l with pending := [], received := false })

theorem Line.use_case (l : Line) (u : ReceiverUse) : UseCase l (l.use u) := by
  obtain ⟨capacity, pending, notifier, received⟩ := l
  cases u with
  | receive =>
    cases pending with
    | nil => exact .takes [] rfl
    | cons n rest => exact .takes [n] rfl
  | poll =>
    cases pending with
    | nil => cases notifier <;> exact .takes [] rfl
    | cons n rest => exact .takes [n] rfl
  | drain => exact .takes _ (List.append_nil _).symm
  | drop => exact .drops

/-- A use of the receiver moves what it takes from what is pending to what was received. -/
theorem Device.Accounts.use {d : Device} {raised received : List Notification} (ha : d.Accounts raised received)
    (u : ReceiverUse) :
    Device.Accounts { d with line := (d.line.use u).2 } raised (received ++ (d.line.use u).1) := by
  have hdelivered := ha.delivered
  have hcount := ha.coalesced_eq
  have hcase := d.line.use_case u
  generalize d.line.use u = next at hcase
  cases hcase with
  | @takes taken rest h =>
    rw [h, List.length_append] at hcount
    exact { ha with
      delivered := by
        rw [List.append_assoc, ← h]
        exact hdelivered
      coalesced_eq := fun hr => by
        rw [List.length_append]
        have hcount := hcount hr
        have hsame : Device.coalesced { d with line := { d.line with pending := rest } } = d.coalesced := rfl
        rw [hsame]
        dsimp only
        omega }
  | drops =>
    exact { ha with
      delivered := by
        rw [List.append_nil, List.append_nil]
        exact (List.sublist_append_left _ _).trans hdelivered
      coalesced_eq := nofun }

/-! ## Runs with a receiver -/

/-- What happens to a device and its receiver: an action of a run, or a use of the receiver. -/
inductive Occurrence where
  | act (a : Action)
  | use (u : ReceiverUse)

/-- A write of the whole or of a half of the batch factor. -/
def Occurrence.writesBatchFactor : Occurrence → Bool
  | .act (.write offset bytes) =>
    match decode offset bytes.length with
    | .register .batchFactor _ => true
    | _ => false
  | _ => false

/-- A machine, the machines that its steps of cleaning started from, and what its receiver got. -/
structure Reception (μ : Type) where
  machine : Machine μ
  trail : List (Machine μ) := []
  received : List Notification := []

namespace Reception

variable {μ : Type} [VirtineMemory μ]

/-- A new machine, whose line holds at most `capacity` pending notifications. -/
def fresh (memory : μ) (batchFactor : Word) (capacity : Nat) : Reception μ where
  machine := .fresh memory batchFactor (.ofCapacity capacity)

/-- An occurrence as it bears on a machine, on the steps of cleaning so far and on what was received. -/
def take (r : Reception μ) : Occurrence → Reception μ
  | .act a => { r with machine := r.machine.apply a, trail := r.trail ++ r.machine.stepsFrom a }
  | .use u => { r with
      machine := r.machine.mapDevice fun d => { d with line := (d.line.use u).2 }
      received := r.received ++ (r.machine.device.line.use u).1 }

/-- Occurrences, one after the other. -/
def run (r : Reception μ) (occurrences : List Occurrence) : Reception μ := occurrences.foldl take r

/-- The notifications that were raised, in order. -/
def raised (r : Reception μ) : List Notification := r.trail.filterMap Machine.raised?

/-- What was raised and what was received agree with the counts of the device. -/
def Accounted (r : Reception μ) : Prop := r.machine.device.Accounts r.raised r.received

/-- Whatever occurs, the accounts agree. -/
theorem accounted_take {r : Reception μ} (h : r.Accounted) (o : Occurrence) : (r.take o).Accounted := by
  cases o with
  | act a => exact (Machine.keeps_accounts r.received).apply a h
  | use u => exact Device.Accounts.use h u

theorem accounted_run {r : Reception μ} (h : r.Accounted) (occurrences : List Occurrence) :
    (r.run occurrences).Accounted := by
  induction occurrences generalizing r with
  | nil => exact h
  | cons o rest ih => exact ih (accounted_take h o)

/-! ## A batch factor that is never written -/

/-- A write that falls elsewhere leaves the batch factor as it is. -/
theorem batchFactor_writePart (d : Device) (part : Part) (value : Word) {register : Register}
    (h : register ≠ .batchFactor) : (d.writePart part value register).batchFactor = d.batchFactor := by
  have henqueue : ∀ (e : Device) (w : Word), (e.enqueue w).batchFactor = e.batchFactor := by
    intro e w
    have hcase := e.enqueue_case w
    generalize e.enqueue w = next, e.submitEvents w = events at hcase
    cases hcase <;> rfl
  cases register with
  | batchFactor => exact absurd rfl h
  | readyTail =>
    cases part with
    | full => exact henqueue d value
    | low => rfl
    | high => exact henqueue { d with stagedReadyTail := none } _
  | doorbell =>
    simp only [Device.writePart, Device.ringDoorbell]
    split <;> rfl
  | snapshotAddress =>
    have hset : ∃ snapshot staged, d.writeSnapshotAddress part value =
        { d with snapshot, stagedSnapshotAddress := staged } := by
      cases part with
      | low => exact ⟨d.snapshot, _, rfl⟩
      | _ => exact ⟨_, _, rfl⟩
    obtain ⟨_, _, heq⟩ := hset
    rw [Device.writePart, heq]
  | _ => rfl

/-- A write that falls on no part of the batch factor leaves it as it is. -/
theorem batchFactor_write {d : Device} {offset : Word} {bytes : List UInt8}
    (h : ∀ part, decode offset bytes.length ≠ .register .batchFactor part) :
    (d.write offset bytes).2.batchFactor = d.batchFactor := by
  unfold Device.write
  generalize decode offset bytes.length = target at h
  cases target with
  | register register part =>
    refine batchFactor_writePart d part _ ?_
    rintro rfl
    exact h part rfl
  | _ => rfl

/-- So does every action but a write of the batch factor. -/
theorem batchFactor_apply (m : Machine μ) {a : Action} (ha : (Occurrence.act a).writesBatchFactor = false) :
    (m.apply a).device.batchFactor = m.device.batchFactor := by
  by_cases hw : ∃ offset bytes, a = .write offset bytes
  · obtain ⟨offset, bytes, rfl⟩ := hw
    refine batchFactor_write ?_
    intro part hdec
    simp [Occurrence.writesBatchFactor, hdec] at ha
  · have hsettings := m.settings_apply (a := a) fun offset bytes heq => hw ⟨offset, bytes, heq⟩
    exact congrArg Prod.fst hsettings

/-- Every step of cleaning so far was made with one batch factor, and each batch was exactly as large. -/
structure Exact (r : Reception μ) (batchFactor : Word) : Prop where
  same : r.machine.device.batchFactor = batchFactor
  steps : ∀ m ∈ r.trail, m.device.batchFactor = batchFactor
  batch : r.machine.device.cleanedCount < max 1 batchFactor.toNat
  raised : ∀ n ∈ r.raised, n.cleaned = max 1 batchFactor.toNat

theorem exact_fresh (memory : μ) (batchFactor : Word) (capacity : Nat) :
    (fresh memory batchFactor capacity).Exact batchFactor where
  same := rfl
  steps := List.forall_mem_nil _
  batch := Nat.lt_of_lt_of_le Nat.one_pos (Nat.le_max_left _ _)
  raised := List.forall_mem_nil _

/-- An action that leaves the batch factor as it is keeps the batches as large. -/
theorem Exact.act {r : Reception μ} {batchFactor : Word} (h : r.Exact batchFactor) {a : Action}
    (ha : (r.machine.apply a).device.batchFactor = r.machine.device.batchFactor) : (r.take (.act a)).Exact batchFactor := by
  have hsteps : ∀ m ∈ r.trail ++ r.machine.stepsFrom a, m.device.batchFactor = batchFactor := by
    intro m hm
    rcases List.mem_append.1 hm with hm | hm
    · exact h.steps m hm
    · exact (congrArg Prod.fst (Machine.settings_of_mem_stepsFrom hm)).trans h.same
  obtain ⟨hbatch, hraised⟩ := (Machine.keeps_exact batchFactor).apply a (fun _ => ⟨h.batch, h.raised⟩) hsteps
  exact ⟨ha.trans h.same, hsteps, hbatch, hraised⟩

/-- So does a use of the receiver. -/
theorem Exact.use {r : Reception μ} {batchFactor : Word} (h : r.Exact batchFactor) (u : ReceiverUse) :
    (r.take (.use u)).Exact batchFactor := ⟨h.same, h.steps, h.batch, h.raised⟩

/-- Occurrences that do not write the batch factor keep the batches as large. -/
theorem exact_take {r : Reception μ} {batchFactor : Word} (h : r.Exact batchFactor) {o : Occurrence}
    (ho : o.writesBatchFactor = false) : (r.take o).Exact batchFactor := by
  cases o with
  | act a => exact h.act (batchFactor_apply r.machine ho)
  | use u => exact h.use u

theorem exact_run {r : Reception μ} {batchFactor : Word} (h : r.Exact batchFactor) {occurrences : List Occurrence}
    (ho : ∀ o ∈ occurrences, o.writesBatchFactor = false) : (r.run occurrences).Exact batchFactor := by
  induction occurrences generalizing r with
  | nil => exact h
  | cons o rest ih =>
    exact ih (exact_take h (ho o List.mem_cons_self)) fun p hp => ho p (List.mem_cons_of_mem o hp)

/-! ## The accounting -/

/-- The notifications of a run are accounted for at every moment, however the batch factor is written: with what waits for its batch
they tell of all that was cleaned, they are numbered from one without a gap, and each of them, when raised, is at least as large as
its batch had to be, while no batch is left complete. What the receiver gets comes in this order, and until the receiver goes away
what it does not get is coalesced. With a batch factor that is never written every notification tells of exactly one batch. -/
theorem notifications_of_run (memory : μ) (batchFactor : Word) (capacity : Nat) (occurrences : List Occurrence) :
    let r := (fresh memory batchFactor capacity).run occurrences
    (r.raised.map (·.cleaned)).sum + r.machine.device.cleanedCount = r.machine.device.stats.cleaned ∧
      r.raised.map (·.sequence) = List.range' 1 r.machine.device.stats.notifications ∧
      (∀ m ∈ r.trail, ∀ n, m.raised? = some n → m.device.batchSize ≤ n.cleaned) ∧
      (∀ m ∈ r.trail, ∀ a, m.cleanNext.1 = .cleaned a →
        m.cleanNext.2.device.cleanedCount < m.cleanNext.2.device.batchSize) ∧
      (r.received ++ r.machine.device.line.pending).Sublist r.raised ∧
      (r.machine.device.line.received = true → r.received.length + r.machine.device.line.pending.length +
        r.machine.device.counters.notificationsCoalesced = r.raised.length) ∧
      ((∀ o ∈ occurrences, o.writesBatchFactor = false) → ∀ n ∈ r.raised, n.cleaned = max 1 batchFactor.toNat) := by
  intro r
  have hfresh : (fresh memory batchFactor capacity).Accounted := Device.Accounts.fresh batchFactor capacity
  have haccounts : r.Accounted := accounted_run hfresh occurrences
  have hexact : (∀ o ∈ occurrences, o.writesBatchFactor = false) → r.Exact batchFactor :=
    exact_run (exact_fresh memory batchFactor capacity)
  clear_value r
  have hcoalesced := haccounts.coalesced_eq
  rw [← Device.counters_notificationsCoalesced] at hcoalesced
  refine ⟨haccounts.cleaned_eq, haccounts.sequence_eq, ?_, ?_, haccounts.delivered, hcoalesced, ?_⟩
  · intro m _ n hn
    exact Machine.batchSize_le_of_raised hn
  · intro m _ a ha
    exact Machine.cleanedCount_lt_of_cleaned ha
  · intro hwrites
    exact (hexact hwrites).raised

/-- Three virtines with a factor of two: the first two are told of, and the third waits. -/
theorem notifications_of_run_amid_a_batch :
    let occurrences : List Occurrence :=
      [.act (.write Register.readyTail.address [0, 16, 0, 0, 0, 0, 0, 0]),
        .act (.write Register.readyTail.address [0, 32, 0, 0, 0, 0, 0, 0]), .act .processReadyQueue, .use .poll,
        .act (.write Register.readyTail.address [0, 48, 0, 0, 0, 0, 0, 0]), .act .processReadyQueue, .use .drain]
    let r := (fresh (DenseMemory.zeros 0) 2 1).run occurrences
    (∀ o ∈ occurrences, o.writesBatchFactor = false) ∧ r.raised = [⟨1, 2⟩] ∧ r.received = [⟨1, 2⟩] ∧
      r.machine.device.stats.cleaned = 3 ∧ r.machine.device.cleanedCount = 1 ∧
      r.machine.device.counters.notificationsCoalesced = 0 ∧ ∀ n ∈ r.raised, n.cleaned = 2 := by
  intro occurrences r
  have hwrites : ∀ o ∈ occurrences, o.writesBatchFactor = false := by decide
  have hraised : r.raised = [⟨1, 2⟩] := by decide +kernel
  have hreceived : r.received = [⟨1, 2⟩] := by decide +kernel
  have hpending : r.machine.device.line.pending = [] := by decide +kernel
  have hcount : r.machine.device.cleanedCount = 1 := by decide +kernel
  obtain ⟨hsum, -, -, -, -, hcoalesced, hexact⟩ := notifications_of_run (DenseMemory.zeros 0) 2 1 occurrences
  have hnone := hcoalesced (by decide +kernel)
  change (r.raised.map _).sum + r.machine.device.cleanedCount = r.machine.device.stats.cleaned at hsum
  change r.received.length + r.machine.device.line.pending.length + _ = r.raised.length at hnone
  rw [hraised, hcount] at hsum
  rw [hraised, hreceived, hpending] at hnone
  exact ⟨hwrites, hraised, hreceived, hsum.symm, hcount, Nat.add_left_cancel hnone, hexact hwrites⟩

end Reception

end VirtineCleaning

import Mathlib.Data.List.Induction
import VirtineCleaning.Notification

/-!
# Lines deliver in order and count their losses

A line is a bounded queue whose writer never waits. Whatever its two ends do, in any order, until they go away: the raises are
numbered, a raise is delivered exactly if the receiver is there and the line has room, and what the receiver has got, followed by
what is pending, is what was delivered. What is not delivered while the receiver is there is counted, and nothing else is
(`accounts_of_run`). No receiver waits at the moment of a raise, so a line without capacity delivers nothing.
-/

namespace VirtineCleaning.Line

/-! ## Uses of the two ends -/

/-- What is done with an end of a line. -/
inductive Operation where
  | raise (cleaned : Nat)
  | receive
  | drain
  | poll
  | closeNotifier
  | closeReceiver
deriving DecidableEq, Repr

/-- What an operation answers. -/
inductive Answer where
  | raised (delivered : Bool)
  | received (n : Option Notification)
  | drained (ns : List Notification)
  | polled (receipt : Receipt)
  | closed
  /-- The end is gone, and can do nothing any more. -/
  | gone
deriving DecidableEq, Repr

/-- The notifications that an answer hands over. -/
def Answer.handed : Answer → List Notification
  | .received n => n.toList
  | .drained ns => ns
  | .polled (.notification n) => [n]
  | _ => []

/-- An operation on a line. -/
def perform (l : Line) : Operation → Answer × Line
  | .raise cleaned =>
    match l.raise? cleaned with
    | some (delivered, l) => (.raised delivered, l)
    | none => (.gone, l)
  | .receive => if l.received then (.received l.receive.1, l.receive.2) else (.gone, l)
  | .drain => if l.received then (.drained l.drain.1, l.drain.2) else (.gone, l)
  | .poll => if l.received then (.polled l.poll.1, l.poll.2) else (.gone, l)
  | .closeNotifier => if l.notifier.isSome then (.closed, l.closeNotifier) else (.gone, l)
  | .closeReceiver => if l.received then (.closed, l.closeReceiver) else (.gone, l)

/-- A raise that is made takes the next number. It is delivered behind what is pending if the receiver is there and there is room,
and counted if the receiver is there and there is none. -/
theorem raise?_eq {l : Line} {notifier : Notifier} (hn : l.notifier = some notifier) (cleaned : Nat) :
    l.raise? cleaned = some (
      if l.received = true ∧ l.pending.length < l.capacity then
        (true, { l with
          pending := l.pending ++ [⟨notifier.nextSequence, cleaned⟩]
          notifier := some { notifier with nextSequence := notifier.nextSequence + 1 } })
      else
        (false, { l with
          notifier := some ⟨notifier.nextSequence + 1, notifier.coalesced + if l.received then 1 else 0⟩ })) := by
  rw [raise?, hn, Option.map_some]
  by_cases hr : l.received = true
  · by_cases hroom : l.pending.length < l.capacity <;> simp [hr, hroom]
  · simp [hr]

/-- A poll takes the oldest notification that is pending. -/
theorem poll_cons {l : Line} {n : Notification} {rest : List Notification} (h : l.pending = n :: rest) :
    l.poll = (.notification n, { l with pending := rest }) := by
  rw [poll, receive, h]

/-- Where nothing is pending, it tells whether something may still come. -/
theorem poll_nil {l : Line} (h : l.pending = []) : l.poll = (if l.notifier.isSome then .timeout else .disconnected, l) := by
  rw [poll, receive, h]

/-- The ways of an operation: its end is gone, a raise is delivered or not, the receiver takes what is first, or an end goes away. -/
inductive OperationCase (l : Line) : Operation → Answer × Line → Prop where
  | gone {op : Operation} (hn : op = .closeNotifier → l.notifier = none) (hr : op = .closeReceiver → l.received = false) :
      OperationCase l op (.gone, l)
  | delivered {notifier : Notifier} (cleaned : Nat) (hn : l.notifier = some notifier) (hr : l.received = true)
      (hroom : l.pending.length < l.capacity) :
      OperationCase l (.raise cleaned) (.raised true, { l with
        pending := l.pending ++ [⟨notifier.nextSequence, cleaned⟩]
        notifier := some { notifier with nextSequence := notifier.nextSequence + 1 } })
  | refused {notifier : Notifier} (cleaned : Nat) (hn : l.notifier = some notifier)
      (h : ¬(l.received = true ∧ l.pending.length < l.capacity)) :
      OperationCase l (.raise cleaned) (.raised false, { l with
        notifier := some ⟨notifier.nextSequence + 1, notifier.coalesced + if l.received then 1 else 0⟩ })
  | taken {op : Operation} {answer : Answer} {rest : List Notification} (hop : op ∈ [.receive, .drain, .poll])
      (hanswer : ∀ delivered, answer ≠ .raised delivered) (hr : l.received = true)
      (h : l.pending = answer.handed ++ rest) : OperationCase l op (answer, { l with pending := rest })
  | notifierClosed : OperationCase l .closeNotifier (.closed, l.closeNotifier)
  | receiverClosed (hr : l.received = true) : OperationCase l .closeReceiver (.closed, l.closeReceiver)

theorem perform_case (l : Line) (op : Operation) : OperationCase l op (l.perform op) := by
  obtain ⟨capacity, pending, notifier, received⟩ := l
  cases op with
  | raise cleaned =>
    cases notifier with
    | none => exact .gone nofun nofun
    | some notifier =>
      rw [perform, raise?_eq rfl cleaned]
      by_cases h : received = true ∧ pending.length < capacity
      · rw [if_pos h]
        exact .delivered cleaned rfl h.1 h.2
      · rw [if_neg h]
        exact .refused cleaned rfl h
  | closeNotifier =>
    cases notifier with
    | none => exact .gone (fun _ => rfl) nofun
    | some notifier => exact .notifierClosed
  | closeReceiver =>
    cases received with
    | false => exact .gone nofun fun _ => rfl
    | true => exact .receiverClosed rfl
  | receive =>
    cases received with
    | false => exact .gone nofun nofun
    | true => cases pending <;> exact .taken (by simp) nofun rfl rfl
  | drain =>
    cases received with
    | false => exact .gone nofun nofun
    | true => exact .taken (by simp) nofun rfl (List.append_nil pending).symm
  | poll =>
    cases received with
    | false => exact .gone nofun nofun
    | true =>
      cases pending with
      | nil => cases notifier <;> exact .taken (by simp) nofun rfl rfl
      | cons n rest => exact .taken (by simp) nofun rfl rfl

/-! ## What was done with a line -/

/-- Operations and their answers, in order. -/
abbrev Record := List (Operation × Answer)

namespace Record

/-- What a raise tells of, and whether it was delivered. -/
def raise? : Operation × Answer → Option (Nat × Bool)
  | (.raise cleaned, .raised delivered) => some (cleaned, delivered)
  | _ => none

/-- The raises that were made, in order. -/
def raises (r : Record) : List (Nat × Bool) := r.filterMap raise?

/-- The notification of the `k`-th raise, if it was delivered. -/
def delivery? : (Nat × Bool) × Nat → Option Notification
  | ((cleaned, true), k) => some ⟨k, cleaned⟩
  | ((_, false), _) => none

/-- The notifications that were delivered, in order, each with the number of its raise. -/
def delivered (r : Record) : List Notification := (r.raises.zipIdx 1).filterMap delivery?

/-- The notifications that the receiver got, in order. -/
def received (r : Record) : List Notification := r.flatMap (·.2.handed)

/-- How many raises were refused while the receiver was there. -/
def lost (r : Record) : Nat := (r.takeWhile (·.1 != .closeReceiver)).countP (·.2 == .raised false)

variable {r : Record}

theorem raises_concat (r : Record) (e : Operation × Answer) : raises (r ++ [e]) = r.raises ++ (raise? e).toList := by
  rw [raises, List.filterMap_append]
  cases h : raise? e <;> simp [raises, h]

theorem received_concat (r : Record) (e : Operation × Answer) : received (r ++ [e]) = r.received ++ e.2.handed := by
  simp [received]

/-- A raise hands nothing over, and is one more. -/
theorem concat_raised (r : Record) (cleaned : Nat) (d : Bool) :
    received (r ++ [(.raise cleaned, .raised d)]) = r.received ∧
      (raises (r ++ [(.raise cleaned, .raised d)])).length = r.raises.length + 1 := by
  rw [received_concat, raises_concat, List.length_append]
  exact ⟨List.append_nil _, rfl⟩

/-- A raise delivers the notification of its number, or none. -/
theorem delivered_raise (r : Record) (cleaned : Nat) (d : Bool) :
    delivered (r ++ [(.raise cleaned, .raised d)]) =
      r.delivered ++ if d then [⟨r.raises.length + 1, cleaned⟩] else [] := by
  rw [delivered, raises_concat]
  simp only [raise?, Option.toList_some, List.zipIdx_append, List.filterMap_append]
  cases d <;> simp [delivered, delivery?, Nat.add_comm]

/-- The numbers of what was delivered increase. -/
theorem pairwise_delivered (r : Record) : (r.delivered.map (·.sequence)).Pairwise (· < ·) := by
  have hnumbers : ∀ made : List ((Nat × Bool) × Nat),
      ((made.filterMap delivery?).map (·.sequence)).Sublist (made.map Prod.snd) := by
    intro made
    induction made with
    | nil => exact .slnil
    | cons raise rest ih =>
      obtain ⟨⟨cleaned, delivered⟩, k⟩ := raise
      cases delivered with
      | false => exact ih.cons k
      | true => exact ih.cons_cons k
  have hindices : (r.raises.zipIdx 1).map Prod.snd = List.range' 1 r.raises.length := List.zipIdx_map_snd 1 r.raises
  exact (hindices ▸ List.pairwise_lt_range').sublist (hnumbers _)

/-- What follows the end of the receiver loses nothing. -/
theorem lost_append (r s : Record) :
    lost (r ++ s) = if Operation.closeReceiver ∈ r.map Prod.fst then r.lost else r.lost + lost s := by
  induction r with
  | nil => simp [lost]
  | cons e rest ih =>
    by_cases he : e.1 = .closeReceiver
    · simp [lost, he]
    · have hcons : ∀ t : Record, lost (e :: t) = lost t + if e.2 = .raised false then 1 else 0 := by
        intro t
        simp [lost, he, List.countP_cons]
      have hmem : Operation.closeReceiver ∈ (e :: rest).map Prod.fst ↔ .closeReceiver ∈ rest.map Prod.fst := by
        simp [Ne.symm he]
      rw [List.cons_append, hcons, hcons, ih]
      simp only [hmem]
      split <;> omega

/-- What is not refused is not lost. -/
theorem lost_concat_of_ne {e : Operation × Answer} (he : e.2 ≠ .raised false) (r : Record) :
    lost (r ++ [e]) = r.lost := by
  have hone : lost [e] = 0 := by
    rw [lost, List.countP_eq_zero]
    intro x hx
    have hxe : x = e := List.mem_singleton.mp ((List.takeWhile_sublist _).subset hx)
    simpa [hxe] using he
  rw [lost_append, hone, Nat.add_zero, ite_self]

/-- What is refused is lost while the receiver is there. -/
theorem lost_refused (r : Record) (cleaned : Nat) :
    lost (r ++ [(.raise cleaned, .raised false)]) =
      r.lost + if Operation.closeReceiver ∈ r.map Prod.fst then 0 else 1 := by
  rw [lost_append]
  split <;> rfl

/-- What is no raise delivers nothing and loses nothing. -/
theorem concat_of_ne_raised {e : Operation × Answer} (he : ∀ delivered, e.2 ≠ .raised delivered) (r : Record) :
    raises (r ++ [e]) = r.raises ∧ delivered (r ++ [e]) = r.delivered ∧ lost (r ++ [e]) = r.lost := by
  have hnone : raise? e = none := by
    unfold raise?
    split
    · exact (he _ rfl).elim
    · rfl
  have hraises : raises (r ++ [e]) = r.raises := by
    rw [raises_concat, hnone, Option.toList_none, List.append_nil]
  exact ⟨hraises, by rw [delivered, hraises, delivered], lost_concat_of_ne (he false) r⟩

end Record

/-! ## Lines in use -/

/-- A line in use, and what was done with it. -/
structure Usage where
  line : Line
  record : Record := []

namespace Usage

/-- An operation on the line, with its answer on record. -/
def perform (u : Usage) (op : Operation) : Usage :=
  ⟨(u.line.perform op).2, u.record ++ [(op, (u.line.perform op).1)]⟩

/-- Operations, one after the other. -/
def run (u : Usage) (ops : List Operation) : Usage := ops.foldl perform u

theorem run_concat (u : Usage) (ops : List Operation) (op : Operation) :
    u.run (ops ++ [op]) = (u.run ops).perform op := by
  rw [run, List.foldl_append]
  rfl

/-- What a line accounts for, after operations on its ends. -/
structure Accounted (u : Usage) (capacity : Nat) (ops : List Operation) : Prop where
  operations_eq : u.record.map Prod.fst = ops
  capacity_eq : u.line.capacity = capacity
  /-- The receiver is there until it is closed. -/
  received_iff : u.line.received = true ↔ .closeReceiver ∉ ops
  /-- The notifier is there until it is closed. Its next raise takes the next number, and it has counted what was lost. -/
  notifier_eq : u.line.notifier =
    if .closeNotifier ∈ ops then none else some ⟨u.record.raises.length + 1, u.record.lost⟩
  room : u.line.pending.length ≤ capacity
  /-- What the receiver got was delivered, in the same order, and nothing before it is missing. -/
  inOrder : u.record.received <+: u.record.delivered
  /-- While the receiver is there, what it did not get is pending. -/
  kept : .closeReceiver ∉ ops → u.record.received ++ u.line.pending = u.record.delivered
  /-- While the receiver is there, what was not delivered was lost. -/
  counted : .closeReceiver ∉ ops → u.record.raises.length = u.record.delivered.length + u.record.lost
  /-- What is pending goes away with the receiver. -/
  discarded : .closeReceiver ∈ ops → u.line.pending = []

variable {u : Usage} {capacity : Nat} {ops : List Operation}

/-- An operation that is no raise hands over what is first, and an end that it closes is gone with what is its own. -/
theorem Accounted.concat (h : u.Accounted capacity ops) {op : Operation} {answer : Answer} {line : Line}
    {rest : List Notification} (hanswer : ∀ delivered, answer ≠ .raised delivered)
    (hcapacity : line.capacity = u.line.capacity) (hreceived : line.received = (u.line.received && !decide (op = .closeReceiver)))
    (hnotifier : line.notifier = if op = .closeNotifier then none else u.line.notifier)
    (hpending : u.line.pending = answer.handed ++ rest) (hrest : line.pending = if op = .closeReceiver then [] else rest) :
    Accounted ⟨line, u.record ++ [(op, answer)]⟩ capacity (ops ++ [op]) := by
  obtain ⟨hraises, hdelivered, hlost⟩ := u.record.concat_of_ne_raised (e := (op, answer)) hanswer
  have hclosed : ∀ close : Operation, close ∈ ops ++ [op] ↔ close ∈ ops ∨ op = close := by
    intro close
    rw [List.mem_append, List.mem_singleton, eq_comm (a := close)]
  have hkept : .closeReceiver ∉ ops → u.record.received ++ answer.handed ++ rest = u.record.delivered := by
    intro hnot
    rw [List.append_assoc, ← hpending, h.kept hnot]
  refine ⟨?_, hcapacity.trans h.capacity_eq, ?_, ?_, ?_, ?_, ?_, ?_, ?_⟩
  · rw [List.map_append, h.operations_eq]
    rfl
  · dsimp only
    rw [hreceived, Bool.and_eq_true, h.received_iff, Bool.not_eq_true', decide_eq_false_iff_not, hclosed, not_or]
  · dsimp only
    rw [hnotifier, h.notifier_eq, hraises, hlost]
    by_cases hop : op = .closeNotifier <;> simp [hclosed, hop]
  · have hroom := h.room
    rw [hpending, List.length_append] at hroom
    dsimp only
    rw [hrest]
    split
    · exact Nat.zero_le capacity
    · omega
  · rw [hdelivered, Record.received_concat]
    by_cases hgone : .closeReceiver ∈ ops
    · have hnil := h.discarded hgone
      rw [hpending, List.append_eq_nil_iff] at hnil
      rw [hnil.1, List.append_nil]
      exact h.inOrder
    · exact ⟨rest, hkept hgone⟩
  · intro hnot
    rw [hclosed, not_or] at hnot
    dsimp only
    rw [hdelivered, Record.received_concat, hrest, if_neg hnot.2, hkept hnot.1]
  · intro hnot
    rw [hclosed, not_or] at hnot
    rw [hraises, hdelivered, hlost, h.counted hnot.1]
  · intro hgone
    dsimp only
    rw [hrest]
    split
    · rfl
    · have hnil := h.discarded (((hclosed _).mp hgone).resolve_right (by assumption))
      rw [hpending, List.append_eq_nil_iff] at hnil
      exact hnil.2

/-- A raise closes no end. -/
theorem closed_concat_raise (ops : List Operation) (cleaned : Nat) :
    (.closeNotifier ∈ ops ++ [.raise cleaned] ↔ .closeNotifier ∈ ops) ∧
      (.closeReceiver ∈ ops ++ [.raise cleaned] ↔ .closeReceiver ∈ ops) := by
  simp

/-- The notifier that makes a raise was not closed before. -/
theorem Accounted.notifier_some (h : u.Accounted capacity ops) {notifier : Notifier}
    (hn : u.line.notifier = some notifier) :
    .closeNotifier ∉ ops ∧ notifier = ⟨u.record.raises.length + 1, u.record.lost⟩ := by
  have hif := h.notifier_eq
  rw [hn] at hif
  split at hif
  · cases hif
  · exact ⟨by assumption, Option.some.inj hif⟩

/-- A raise is delivered where there is room and a receiver. -/
theorem Accounted.concat_delivered (h : u.Accounted capacity ops) {notifier : Notifier}
    (hn : u.line.notifier = some notifier) (hr : u.line.received = true)
    (hroom : u.line.pending.length < u.line.capacity) (cleaned : Nat) :
    Accounted ⟨{ u.line with
      pending := u.line.pending ++ [⟨notifier.nextSequence, cleaned⟩]
      notifier := some { notifier with nextSequence := notifier.nextSequence + 1 } },
      u.record ++ [(.raise cleaned, .raised true)]⟩ capacity (ops ++ [.raise cleaned]) := by
  obtain ⟨hopen, rfl⟩ := h.notifier_some hn
  obtain ⟨hnotifier, hreceiver⟩ := closed_concat_raise ops cleaned
  have hthere : .closeReceiver ∉ ops := h.received_iff.mp hr
  have hdelivered := u.record.delivered_raise cleaned true
  rw [if_pos rfl] at hdelivered
  obtain ⟨hreceived, hraises⟩ := u.record.concat_raised cleaned true
  have hlost := Record.lost_concat_of_ne (e := (.raise cleaned, .raised true)) nofun u.record
  have hcapacity := h.capacity_eq
  refine ⟨?_, hcapacity, ?_, ?_, ?_, ?_, ?_, ?_, ?_⟩
  · rw [List.map_append, h.operations_eq]
    rfl
  · rw [hreceiver]
    exact h.received_iff
  · dsimp only
    rw [if_neg (mt hnotifier.mp hopen), hraises, hlost]
  · rw [List.length_append, List.length_singleton]
    omega
  · rw [hreceived, hdelivered]
    exact h.inOrder.trans (List.prefix_append ..)
  · intro _
    rw [hreceived, hdelivered, ← h.kept hthere, List.append_assoc]
  · intro _
    rw [hraises, hdelivered, hlost, h.counted hthere, List.length_append, List.length_singleton]
    omega
  · rw [hreceiver]
    exact fun hgone => (hthere hgone).elim

/-- A raise that finds the line full is lost and counted, unless the receiver is gone. -/
theorem Accounted.concat_refused (h : u.Accounted capacity ops) {notifier : Notifier}
    (hn : u.line.notifier = some notifier) (cleaned : Nat) :
    Accounted ⟨{ u.line with
      notifier := some ⟨notifier.nextSequence + 1, notifier.coalesced + if u.line.received then 1 else 0⟩ },
      u.record ++ [(.raise cleaned, .raised false)]⟩ capacity (ops ++ [.raise cleaned]) := by
  obtain ⟨hopen, rfl⟩ := h.notifier_some hn
  have hdelivered := u.record.delivered_raise cleaned false
  rw [if_neg Bool.false_ne_true, List.append_nil] at hdelivered
  obtain ⟨hreceived, hraises⟩ := u.record.concat_raised cleaned false
  obtain ⟨hnotifier, hreceiver⟩ := closed_concat_raise ops cleaned
  have hlost := u.record.lost_refused cleaned
  rw [h.operations_eq] at hlost
  refine ⟨?_, h.capacity_eq, ?_, ?_, h.room, ?_, ?_, ?_, ?_⟩
  · rw [List.map_append, h.operations_eq]
    rfl
  · rw [hreceiver]
    exact h.received_iff
  · have hcount : (if u.line.received then 1 else 0) = if Operation.closeReceiver ∈ ops then 0 else 1 := by
      exact (if_congr h.received_iff rfl rfl).trans (ite_not ..)
    dsimp only
    rw [if_neg (mt hnotifier.mp hopen), hraises, hlost, hcount]
  · rw [hreceived, hdelivered]
    exact h.inOrder
  · rw [hreceiver, hreceived, hdelivered]
    exact h.kept
  · rw [hreceiver]
    intro hthere
    rw [hraises, hdelivered, hlost, if_neg hthere, h.counted hthere]
    omega
  · rw [hreceiver]
    exact h.discarded

/-- So the accounts go on with any operation. -/
theorem Accounted.perform (h : u.Accounted capacity ops) (op : Operation) :
    (u.perform op).Accounted capacity (ops ++ [op]) := by
  have hcase := u.line.perform_case op
  rw [Usage.perform]
  generalize u.line.perform op = result at hcase
  cases hcase with
  | gone hn hr =>
    refine h.concat nofun rfl ?_ ?_ (List.nil_append _).symm ?_
    · by_cases hop : op = .closeReceiver <;> simp [hop, hr]
    · split
      · next hop => exact hn hop
      · rfl
    · split
      · next hop =>
        refine h.discarded (not_not.mp (mt h.received_iff.mpr ?_))
        rw [hr hop]
        exact Bool.false_ne_true
      · rfl
  | delivered cleaned hn hr hroom => exact h.concat_delivered hn hr hroom cleaned
  | refused cleaned hn hno => exact h.concat_refused hn cleaned
  | taken hop hanswer hr hpending =>
    simp only [List.mem_cons, List.not_mem_nil, or_false] at hop
    rcases hop with rfl | rfl | rfl <;> exact h.concat hanswer rfl (Bool.and_true _).symm rfl hpending rfl
  | notifierClosed => exact h.concat nofun rfl (Bool.and_true _).symm rfl (List.nil_append _).symm rfl
  | receiverClosed hr => exact h.concat nofun rfl (Bool.and_false _).symm rfl (List.nil_append _).symm rfl

theorem Accounted.of_run (capacity : Nat) (ops : List Operation) :
    (run { line := .ofCapacity capacity } ops).Accounted capacity ops := by
  induction ops using List.reverseRecOn with
  | nil =>
    exact ⟨rfl, rfl, iff_of_true rfl List.not_mem_nil, rfl, Nat.zero_le _, List.nil_prefix, fun _ => rfl, fun _ => rfl, nofun⟩
  | append_singleton ops op ih =>
    rw [run_concat]
    exact ih.perform op

/-- Without a receiver nothing is delivered or counted any more. -/
theorem Accounted.perform_of_closed (h : u.Accounted capacity ops) (hgone : .closeReceiver ∈ ops) (op : Operation) :
    (u.perform op).record.delivered = u.record.delivered ∧ (u.perform op).record.lost = u.record.lost := by
  have hclosed : u.line.received ≠ true := mt h.received_iff.mp (not_not.mpr hgone)
  have hcase := u.line.perform_case op
  rw [Usage.perform]
  generalize u.line.perform op = result at hcase
  constructor
  · cases hcase with
    | gone => exact (u.record.concat_of_ne_raised (e := (op, .gone)) nofun).2.1
    | notifierClosed => exact (u.record.concat_of_ne_raised (e := (.closeNotifier, .closed)) nofun).2.1
    | refused cleaned => exact (u.record.delivered_raise cleaned false).trans (List.append_nil _)
    | delivered _ _ hr | taken _ _ hr | receiverClosed hr => exact absurd hr hclosed
  · dsimp only
    rw [Record.lost_append, h.operations_eq, if_pos hgone]

/-! ## What a line answers -/

/-- A raise tells whether it was delivered. -/
theorem Accounted.raise_answer (h : u.Accounted capacity ops) (cleaned : Nat) :
    (u.line.perform (.raise cleaned)).1 = if .closeNotifier ∈ ops then .gone
      else .raised (decide (.closeReceiver ∉ ops ∧ u.line.pending.length < capacity)) := by
  have hnotifier := h.notifier_eq
  rw [Line.perform]
  split at hnotifier
  · next hclosed => rw [if_pos hclosed, raise?, hnotifier, Option.map_none]
  · next hopen =>
    have hdelivers : (u.line.received = true ∧ u.line.pending.length < u.line.capacity) ↔
        .closeReceiver ∉ ops ∧ u.line.pending.length < capacity := by
      rw [h.received_iff, h.capacity_eq]
    rw [if_neg hopen, raise?_eq hnotifier]
    by_cases hroom : u.line.received = true ∧ u.line.pending.length < u.line.capacity
    · rw [if_pos hroom, decide_eq_true (hdelivers.mp hroom)]
    · rw [if_neg hroom, decide_eq_false (mt hdelivers.mpr hroom)]

/-- A poll hands out the oldest pending notification, and tells whether more can come. -/
theorem Accounted.poll_answer (h : u.Accounted capacity ops) (hthere : .closeReceiver ∉ ops) :
    (u.line.perform .poll).1 = .polled (match u.line.pending with
      | n :: _ => .notification n
      | [] => if .closeNotifier ∈ ops then .disconnected else .timeout) := by
  rw [Line.perform, if_pos (h.received_iff.mpr hthere)]
  cases hpending : u.line.pending with
  | nil =>
    rw [poll_nil hpending, h.notifier_eq]
    split <;> rfl
  | cons n rest => rw [poll_cons hpending]

/-- Whatever is done with the ends of a line, in any order: a raise is delivered exactly if the receiver is there and the line has
room, and it takes the next number in any case. While the receiver is there, what it got, followed by what is pending, is what was
delivered, each once and in order, so that the numbers it got increase, and what was not delivered is counted. After the end of the
receiver nothing is delivered or counted. What is pending outlives the notifier, and the receiver is told that the notifier is gone
only when nothing is pending any more. -/
theorem accounts_of_run (capacity : Nat) (ops : List Operation) :
    let u := run { line := .ofCapacity capacity } ops
    u.Accounted capacity ops ∧ (u.record.received.map (·.sequence)).Pairwise (· < ·) ∧
      u.line.coalesced? = (if .closeNotifier ∈ ops then none else some u.record.lost) ∧
      (∀ cleaned, (u.line.perform (.raise cleaned)).1 = if .closeNotifier ∈ ops then .gone
        else .raised (decide (.closeReceiver ∉ ops ∧ u.line.pending.length < capacity))) ∧
      (.closeReceiver ∉ ops →
        u.record.raises.length = u.record.received.length + u.line.pending.length + u.record.lost ∧
          (u.line.perform .receive).1 = .received u.line.pending.head? ∧
          (u.line.perform .drain).1 = .drained u.line.pending ∧
          (u.line.perform .poll).1 = .polled (match u.line.pending with
            | n :: _ => .notification n
            | [] => if .closeNotifier ∈ ops then .disconnected else .timeout)) ∧
      (.closeReceiver ∈ ops → ∀ op,
        (u.perform op).record.delivered = u.record.delivered ∧ (u.perform op).record.lost = u.record.lost) := by
  intro u
  have h := Accounted.of_run capacity ops
  refine ⟨h, ?_, ?_, h.raise_answer, ?_, h.perform_of_closed⟩
  · exact u.record.pairwise_delivered.sublist (h.inOrder.sublist.map _)
  · rw [coalesced?, h.notifier_eq]
    split <;> rfl
  · intro hthere
    have hreceived := h.received_iff.mpr hthere
    refine ⟨?_, ?_, ?_, h.poll_answer hthere⟩
    · rw [h.counted hthere, ← h.kept hthere, List.length_append]
    · rw [Line.perform, if_pos hreceived, receive]
      cases u.line.pending <;> rfl
    · rw [Line.perform, if_pos hreceived, drain]

/-- The second raise is lost, and its number with it. -/
example :
    (run { line := .ofCapacity 1 }
      [.raise 3, .raise 4, .drain, .raise 5, .closeNotifier, .poll, .poll]).record.map Prod.snd =
      [.raised true, .raised false, .drained [⟨1, 3⟩], .raised true, .closed, .polled (.notification ⟨3, 5⟩),
        .polled .disconnected] := by
  decide

end Usage

end VirtineCleaning.Line

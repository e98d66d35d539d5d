import VirtineCleaning.Proofs.Host.HandOver
import VirtineCleaning.Proofs.Session.Listening
import VirtineCleaning.Proofs.Session.Steady

/-!
# The rounds of a session

The host of a session shares the window with the worker and the listener, on whatever system it runs: before each of its accesses
they make steps, of which nothing is known but that they are calm. So a call is answered as the replies before it tell. A round is
never larger than a queue and begins when everything came back, so each of its virtines is submitted; and a reclaim finds none, as
long as some are out, only on a system that does not let the worker rest.
-/

namespace VirtineCleaning

namespace Machine

variable {μ : Type} [VirtineMemory μ]

/-- A read neither rings nor accepts anything, and nor does a step of the worker. -/
theorem events_of_read_or_work (m : Machine μ) {a : Action} (ha : (∃ offset length, a = .read offset length) ∨ a = .work) :
    ∀ e ∈ m.events a, e ≠ .rung ∧ e.accepted? = none := by
  rcases ha with ⟨offset, length, rfl⟩ | rfl
  · simp only [events, Device.readEvents, Device.dequeueEvents]
    split
    · split <;> simp
    · simp
  · simp only [events]
    split <;> simp

end Machine

namespace Chronicle

variable {μ : Type}

/-- The chronicle after a use of the receiver. -/
def use (k : Chronicle μ) (u : ReceiverUse) : Chronicle μ where
  machine := k.machine.mapDevice fun d => { d with line := (d.line.use u).2 }
  history := k.history
  passed := k.passed ++ [⟨{ k.machine.device with line := (k.machine.device.line.use u).2 }, k.history⟩]

/-- Using the receiver leads on calmly. -/
theorem Leads.use {c d : Chronicle μ} (h : c.Leads d) (u : ReceiverUse) : c.Leads (d.use u) where
  calm := h.calm.trans ⟨rfl, rfl, rfl, rfl, rfl, rfl, fun hb => { hb with }⟩
  passed := h.passed.trans (List.prefix_append _ _)
  last _ := List.getLast?_concat

end Chronicle

namespace Session

open SimulatedDevice (listening)

/-! ## The device between two accesses -/

/-- The device of a session is the listening device of a reception, and a chronicle tells of the same machine. Where the doorbell
was rung for them, all virtines that were accepted are announced. -/
structure UnderWay (c : Config) (o : Options) (start : DenseMemory) (log : List PlatformEvent) (rung : Bool) (a : SimulatedDevice)
    (k : Chronicle DenseMemory) (r : Reception DenseMemory) : Prop where
  device_eq : a = listening c log r
  machine_eq : k.machine = r.machine
  steady : Steady c o start r k.history
  received : r.machine.device.line.received = true
  announced : rung = true → History.announced k.history = History.accepted k.history

section

variable {c : Config} {o : Options} {start : DenseMemory} {log : List PlatformEvent} {rung rung' : Bool} {a : SimulatedDevice}
  {k : Chronicle DenseMemory} {r : Reception DenseMemory}

/-- So it goes on through accesses and steps of the worker that leave the settings as they are. -/
theorem UnderWay.act (h : UnderWay c o start log rung a k r) {action : Action} (ha : action.isAccess = true ∨ action = .work)
    (hsettings : (r.machine.apply action).settings = r.machine.settings)
    (hannounced : rung' = true →
      History.announced (k.history ++ r.machine.events action) = History.accepted (k.history ++ r.machine.events action)) :
    UnderWay c o start log rung' (listening c log (r.take (.act action))) (k.act action) (r.take (.act action)) := by
  obtain ⟨machine, history, passed⟩ := k
  obtain rfl : machine = r.machine := h.machine_eq
  exact ⟨rfl, rfl, h.steady.act ha hsettings, Machine.received_apply h.received action, hannounced⟩

/-- A read or a step of the worker leaves announced what was. -/
theorem UnderWay.act_of_announced (h : UnderWay c o start log rung a k r) {action : Action}
    (ha : (∃ offset length, action = .read offset length) ∨ action = .work) :
    UnderWay c o start log rung (listening c log (r.take (.act action))) (k.act action) (r.take (.act action)) := by
  refine h.act ?_ ?_ fun hrung => History.announced_append (h.announced hrung) (r.machine.events_of_read_or_work ha)
  · rcases ha with ⟨offset, length, rfl⟩ | rfl
    · exact .inl rfl
    · exact .inr rfl
  · refine r.machine.settings_apply ?_
    rcases ha with ⟨offset, length, rfl⟩ | rfl <;> exact nofun

/-- What happens beside the host leads on calmly. -/
theorem UnderWay.beside (h : UnderWay c o start log rung a k r) (b : Beside) :
    ∃ k' r', k.Leads k' ∧ UnderWay c o start log rung (SimulatedDevice.beside a b) k' r' := by
  have hdevice : SimulatedDevice.beside a b = listening c log (r.take b.occurrence) := by
    rw [h.device_eq, SimulatedDevice.beside_listening h.steady.notifier_ne_none]
  rw [hdevice]
  cases b with
  | work => exact ⟨_, _, (Chronicle.Leads.refl k).act rfl, h.act_of_announced (.inr rfl)⟩
  | hear =>
    refine ⟨k.use .poll, r.take (.use .poll), (Chronicle.Leads.refl k).use .poll, rfl, ?_, h.steady.use .poll,
      (Line.received_poll _).trans h.received, h.announced⟩
    rw [Chronicle.use, h.machine_eq]
    rfl

variable {y : System} {s : Scene}

/-- So does a moment that passes, and on a restful system the worker has nothing left to do then. -/
theorem UnderWay.pause (h : UnderWay c o start log rung s.device k r) (y : System) :
    ∃ k' r', k.Leads k' ∧ UnderWay c o start log rung (y.pause s).device k' r' ∧
      (y.Restful → r'.machine.device.hasWork = false) := by
  obtain ⟨device, moment⟩ := s
  obtain ⟨k', r', hleads, hunder⟩ : ∃ k' r', k.Leads k' ∧
      UnderWay c o start log rung ((y.course moment device).foldl SimulatedDevice.beside device) k' r' := by
    refine List.foldlRecOn (motive := fun a => ∃ k' r', k.Leads k' ∧ UnderWay c o start log rung a k' r')
      (y.course moment device) SimulatedDevice.beside ⟨k, r, .refl k, h⟩ ?_
    rintro a ⟨k₁, r₁, hleads, hunder⟩ b -
    obtain ⟨k₂, r₂, hnext, hunder'⟩ := hunder.beside b
    exact ⟨k₂, r₂, hleads.trans hnext, hunder'⟩
  refine ⟨k', r', hleads, hunder, fun hrest => ?_⟩
  have hidle := hrest moment device
  rw [hunder.device_eq] at hidle
  exact hidle

/-! ## The window -/

/-- What is known of a session at the moment before an access. -/
structure Due (y : System) (c : Config) (o : Options) (start : DenseMemory) (rung : Bool) (p : Moment) : Prop where
  steady : ∃ r, r.machine.device = p.device ∧ Steady c o start r p.history
  announced : rung = true → History.announced p.history = History.accepted p.history
  rests : y.Restful → p.device.hasWork = false

/-- The host shares the window of its device. -/
theorem shares_bus (y : System) (c : Config) (o : Options) (start : DenseMemory) (log : List PlatformEvent) (rung : Bool) :
    y.bus.Shares (fun s k => ∃ r, UnderWay c o start log rung s.device k r) (Due y c o start rung) where
  read := by
    rintro s k offset buffer ⟨r, h⟩
    obtain ⟨k', r', hleads, hunder, hrest⟩ := h.pause y
    have hdue : Due y c o start rung k'.now := by
      have hdevice : r'.machine.device = k'.now.device := congrArg Machine.device hunder.machine_eq.symm
      exact ⟨⟨r', hdevice, hunder.steady⟩, hunder.announced, fun hy => hdevice ▸ hrest hy⟩
    have hread : y.bus.read offset buffer s = ((Machine.window.read offset buffer k'.machine).1,
        { y.pause s with device := listening c log (r'.take (.act (.read offset buffer.length))) }) := by
      change (match SimulatedDevice.window.read offset buffer (y.pause s).device with
        | (result, device) => (result, { y.pause s with device })) = _
      rw [hunder.device_eq, SimulatedDevice.window_read_listening, hunder.machine_eq]
    refine ⟨k', hleads, hdue, ?_, ?_⟩
    · rw [hread]
    · rw [hread]
      exact ⟨_, hunder.act_of_announced (.inl ⟨_, _, rfl⟩)⟩

/-- Before the doorbell is rung it submits, too. -/
theorem submits_bus (y : System) (c : Config) (o : Options) (start : DenseMemory) (log : List PlatformEvent) :
    y.bus.Submits (fun s k => ∃ r, UnderWay c o start log false s.device k r) (Due y c o start false) where
  toShares := shares_bus y c o start log false
  write := by
    rintro s k part offset bytes hdec ⟨r, h⟩
    obtain ⟨k', r', hleads, hunder, -⟩ := h.pause y
    have hwrite : (y.bus.write offset bytes s).2 =
        { y.pause s with device := listening c log (r'.take (.act (.write offset bytes))) } := by
      change { y.pause s with device := (SimulatedDevice.window.write offset bytes (y.pause s).device).2 } = _
      rw [hunder.device_eq, SimulatedDevice.window_write_listening]
    refine ⟨k', hleads, ?_⟩
    rw [hwrite]
    exact ⟨_, hunder.act (.inl rfl) (r'.machine.settings_write_readyTail hdec) nofun⟩

/-- A ring announces all that was accepted. -/
theorem UnderWay.ring (h : UnderWay c o start log rung s.device k r) (y : System) :
    ∃ k' r', k.Leads k' ∧ UnderWay c o start log true (y.bus.signal s).device k' r' := by
  obtain ⟨k', r', hleads, hunder, -⟩ := h.pause y
  have hsignal : (y.bus.signal s).device = listening c log (r'.take (.act .signal)) := by
    change SimulatedDevice.window.signal (y.pause s).device = _
    rw [hunder.device_eq, SimulatedDevice.window_signal_listening]
  rw [hsignal]
  refine ⟨_, _, hleads.act (a := .signal) rfl, hunder.act (.inl rfl) (r'.machine.settings_apply nofun) fun _ => ?_⟩
  change History.announced (k'.history ++ [.rung]) = History.accepted (k'.history ++ [.rung])
  rw [History.announced_rung, History.accepted_append]
  exact (List.append_nil _).symm

end

/-! ## Calls -/

end Session

/-- Where fewer virtines are out than a queue has places, the Ready Queue has room. -/
theorem Moment.Records.ready_isFull {p : Moment} {calls : CallLog} {latched : Option Word} (h : p.Records calls latched)
    (hroom : calls.submitted.length < calls.returned.length + maxVirtines) : p.device.ready.isFull = false := by
  have hsubmitted := congrArg List.length h.accepted
  have hreturned := congrArg List.length h.reclaimed
  have hhandled := History.length_handled p.history
  rw [List.length_map, h.balanced.accepted_eq, List.length_append] at hsubmitted
  rw [List.length_map] at hreturned
  rw [h.balanced.cleaned_eq, List.length_append] at hhandled
  rw [h.balanced.ready_holds.isFull_eq, decide_eq_false_iff_not]
  omega

namespace Session

/-- A session between two calls: of the virtines the first were submitted, and so many came back. -/
def Stands (c : Config) (o : Options) (l : Layout) (start : DenseMemory) (log : List PlatformEvent) (rung : Bool)
    (a : SimulatedDevice) (given back : Nat) : Prop :=
  ∃ k r calls, UnderWay c o start log rung a k r ∧ k.now.Records calls none ∧ calls.submitted = l.virtines given ∧
    calls.returned.length = back

section

variable {y : System} {c : Config} {o : Options} {l : Layout} {start : DenseMemory} {log : List PlatformEvent} {s : Scene}
  {given back : Nat}

/-- On a restful system the Complete Queue holds a virtine before each access, as long as one is out. -/
theorem Due.complete_ne_nil {p : Moment} {calls : CallLog} (h : Due y c o start true p) (hy : y.Restful)
    (hrecords : p.Records calls none) (hfits : l.Fits o start.size) (hsubmitted : calls.submitted = l.virtines given)
    (hgiven : given ≤ o.virtines.toNat) (hout : calls.returned.length < given) : p.device.complete.toList ≠ [] := by
  intro hnil
  obtain ⟨r, hdevice, hsteady⟩ := h.steady
  have hidle := h.rests hy
  rw [← hdevice] at hidle hnil
  have haccepted : (History.accepted p.history).map Address.word = l.virtines given := hrecords.accepted.trans hsubmitted
  -- fewer were handled than accepted, since none failed
  have hbehind : (History.handled p.history).length < (History.announced p.history).length := by
    have hcleaned := congrArg List.length hsteady.balanced.cleaned_eq
    have hreturned := congrArg List.length hrecords.reclaimed
    have hcount := congrArg List.length haccepted
    rw [History.cleaned_eq_handled (hsteady.failed_eq_nil hfits haccepted hgiven), hnil, List.append_nil] at hcleaned
    rw [List.length_map] at hreturned hcount
    rw [l.length_virtines] at hcount
    rw [h.announced rfl]
    omega
  have hagrees := hsteady.coherent.toPhaseAgrees
  rcases hsteady.attended hsteady.isStopping hbehind with hbell | hpass | ⟨-, hfull⟩
  · rw [hagrees.hasWork_of_doorbell hsteady.isStopping hbell] at hidle
    cases hidle
  · rw [hagrees.hasWork_of_processing hpass] at hidle
    cases hidle
  · rw [hsteady.balanced.complete_holds.isFull_eq, hnil] at hfull
    cases hfull

/-- The next virtine is submitted where there is room. -/
theorem Stands.submit (h : Stands c o l start log false s.device given back) (y : System) (hfits : l.Fits o start.size)
    (hgiven : given < o.virtines.toNat) (hroom : given < back + maxVirtines) :
    ∃ s', Host.submit y.bus (l.virtine (UInt64.ofNat given)) s = (.ok (), s') ∧
      Stands c o l start log false s'.device (given + 1) back := by
  obtain ⟨k, r, calls, hunder, hrecords, hsubmitted, hreturned⟩ := h
  obtain ⟨s', k', result, hcall, ⟨r', hunder'⟩, hrecords', p, q, hbefore, -, hdecision⟩ :=
    (submits_bus y c o start log).records_submit ⟨r, hunder⟩ hrecords (hfits.virtine_ne_zero hgiven)
  cases hdecision with
  | refused hfull =>
    have hnotFull := hbefore.ready_isFull (by rw [hsubmitted, hreturned, l.length_virtines]; exact hroom)
    exact absurd (hfull.symm.trans hnotFull) nofun
  | accepted =>
    refine ⟨s', hcall, k', r', _, hunder', hrecords', ?_, ?_⟩
    · rw [CallLog.submitted_append, hsubmitted, l.virtines_succ]
      rfl
    · rw [CallLog.returned_append, List.length_append, hreturned]
      rfl

/-- A reclaim finds a virtine, as long as one is out, or the system does not let the worker rest. -/
theorem Stands.reclaim (h : Stands c o l start log true s.device given back) (y : System) (hfits : l.Fits o start.size)
    (hgiven : given ≤ o.virtines.toNat) (hout : back < given) :
    (∃ w s', Host.reclaim y.bus s = (some w, s') ∧ Stands c o l start log true s'.device given (back + 1)) ∨
      (∃ s', Host.reclaim y.bus s = (none, s') ∧ Stands c o l start log true s'.device given back) ∧ ¬y.Restful := by
  obtain ⟨k, r, calls, hunder, hrecords, hsubmitted, hreturned⟩ := h
  obtain ⟨s', k', answer, hcall, ⟨r', hunder'⟩, hrecords', p, q, hbefore, hdue, -, hdecision⟩ :=
    (shares_bus y c o start log true).records_reclaim (c := { k with passed := [k.now] })
      ⟨r, { hunder with }⟩ hrecords rfl
  have hsame : (calls ++ [(Call.reclaim, Reply.reclaimed answer)]).submitted = l.virtines given := by
    rw [CallLog.submitted_append, hsubmitted]
    exact List.append_nil _
  have hmore : (calls ++ [(Call.reclaim, Reply.reclaimed answer)]).returned.length = back + answer.toList.length := by
    rw [CallLog.returned_append, List.length_append, hreturned]
    cases answer <;> rfl
  cases hdecision with
  | empty hnil =>
    refine .inr ⟨⟨s', hcall, k', r', _, hunder', hrecords', hsame, hmore⟩, fun hy => ?_⟩
    exact hdue.complete_ne_nil hy hbefore hfits hsubmitted hgiven (by rw [hreturned]; exact hout) hnil
  | taken => exact .inl ⟨_, s', hcall, k', r', _, hunder', hrecords', hsame, hmore⟩

/-- A ring announces what was submitted. -/
theorem Stands.ring (h : Stands c o l start log false s.device given back) (y : System) :
    Stands c o l start log true (Host.ringDoorbell y.bus s).2.device given back := by
  obtain ⟨k, r, calls, hunder, hrecords, hcalls⟩ := h
  obtain ⟨k', r', hleads, hunder'⟩ := hunder.ring y
  exact ⟨k', r', calls, hunder', hrecords.of_calm hleads.calm, hcalls⟩

/-- What was announced is forgotten when the next round begins. -/
theorem Stands.next {a : SimulatedDevice} (h : Stands c o l start log true a given back) :
    Stands c o l start log false a given back := by
  obtain ⟨k, r, calls, hunder, hrest⟩ := h
  exact ⟨k, r, calls, { hunder with announced := nofun }, hrest⟩

end

/-! ## Rounds -/

/-- A part of a session comes out as it should, or its time is up, which happens only on a system that does not let the worker
rest. -/
inductive InTime {α : Type} (y : System) (P : α → Prop) : Except Failure α → Prop where
  | done {a : α} (h : P a) : InTime y P (.ok a)
  | timedOut (pending round : Nat) (hy : ¬y.Restful) : InTime y P (.error (.timedOut pending round))

section

variable {c : Config} {o : Options} {l : Layout} {start : DenseMemory} {log : List PlatformEvent} {s : Scene}
  {given back index : Nat}

/-- As many virtines are submitted as there is room for. -/
theorem submitVirtines_eq (y : System) (hfits : l.Fits o start.size) (count : Nat)
    (h : Stands c o l start log false s.device index back) (hindex : index + count ≤ o.virtines.toNat)
    (hroom : index + count ≤ back + maxVirtines) :
    ∃ s', submitVirtines y l count index s = .ok s' ∧ Stands c o l start log false s'.device (index + count) back := by
  induction count generalizing s index with
  | zero => exact ⟨s, rfl, h⟩
  | succ count ih =>
    obtain ⟨s₁, hcall, hnext⟩ := h.submit y hfits (by omega) (by omega)
    obtain ⟨s₂, hcalls, hlast⟩ := ih hnext (by omega) (by omega)
    have hnumber : index + 1 + count = index + (count + 1) := by omega
    rw [hnumber] at hlast
    refine ⟨s₂, ?_, hlast⟩
    rw [submitVirtines, hcall]
    exact hcalls

/-- The host gets back a virtine that is out, sooner or later, if it has the time. -/
theorem Stands.await (y : System) (hfits : l.Fits o start.size) (hgiven : given ≤ o.virtines.toNat) (hout : back < given)
    (patience : Nat) (h : Stands c o l start log true s.device given back) :
    (∃ patience' s', awaitVirtine (Host.reclaim y.bus) patience s = some (patience', s') ∧
        Stands c o l start log true s'.device given (back + 1)) ∨
      awaitVirtine (Host.reclaim y.bus) patience s = none ∧ ¬y.Restful := by
  induction patience generalizing s with
  | zero =>
    rcases h.reclaim y hfits hgiven hout with ⟨w, s', hcall, hnext⟩ | ⟨⟨s', hcall, -⟩, hy⟩
    · exact .inl ⟨0, s', by rw [awaitVirtine, hcall], hnext⟩
    · exact .inr ⟨by rw [awaitVirtine, hcall], hy⟩
  | succ patience ih =>
    rcases h.reclaim y hfits hgiven hout with ⟨w, s', hcall, hnext⟩ | ⟨⟨s', hcall, hsame⟩, -⟩
    · exact .inl ⟨patience + 1, s', by rw [awaitVirtine, hcall], hnext⟩
    · rw [awaitVirtine, hcall]
      exact ih hsame

/-- So it gets back all that are out. -/
theorem reclaimVirtines_inTime (y : System) (hfits : l.Fits o start.size) (hgiven : given ≤ o.virtines.toNat) (progress : Progress)
    (pending patience : Nat) (h : Stands c o l start log true s.device given back) (hout : back + pending ≤ given) :
    InTime y (fun next => next.1 = { progress with reclaimed := progress.reclaimed + pending } ∧
        Stands c o l start log true next.2.device given (back + pending))
      (reclaimVirtines y progress pending patience s) := by
  induction pending generalizing s back progress patience with
  | zero => exact .done ⟨rfl, h⟩
  | succ pending ih =>
    rcases h.await y hfits hgiven (by omega) patience with ⟨patience', s', hcall, hnext⟩ | ⟨hcall, hy⟩
    · have hrest := ih { progress with reclaimed := progress.reclaimed + 1 } patience' hnext (by omega)
      rw [reclaimVirtines, hcall]
      have hnumber : progress.reclaimed + 1 + pending = progress.reclaimed + (pending + 1) := by omega
      have hnumber' : back + 1 + pending = back + (pending + 1) := by omega
      rw [hnumber, hnumber'] at hrest
      exact hrest
    · rw [reclaimVirtines, hcall]
      exact .timedOut _ _ hy

/-- A round of at most one queue's worth gives out its virtines and gets them back. -/
theorem round_inTime (y : System) (hfits : l.Fits o start.size) (progress : Progress) {count : Nat}
    (h : Stands c o l start log false s.device index index) (hindex : index + count ≤ o.virtines.toNat)
    (hcount : count ≤ maxVirtines) :
    InTime y (fun next => next.1 = ⟨progress.rounds + 1, progress.reclaimed + count⟩ ∧
        Stands c o l start log false next.2.device (index + count) (index + count))
      (round y l progress count index s) := by
  obtain ⟨s₁, hsubmits, hsubmitted⟩ := submitVirtines_eq y hfits count h hindex (by omega)
  have hreclaims := reclaimVirtines_inTime y hfits hindex progress count (y.patience progress.rounds) (hsubmitted.ring y)
    (Nat.le_refl _)
  unfold round
  rw [hsubmits]
  change InTime y _ (reclaimVirtines y progress count (y.patience progress.rounds) (Host.ringDoorbell y.bus s₁).2 >>= _)
  generalize reclaimVirtines y progress count (y.patience progress.rounds) (Host.ringDoorbell y.bus s₁).2 = answer at hreclaims
  cases hreclaims with
  | done hdone =>
    obtain ⟨hprogress, hlast⟩ := hdone
    exact .done ⟨by rw [hprogress], hlast.next⟩
  | timedOut pending round hy => exact .timedOut pending round hy

/-- Rounds of at most one queue's worth get everything back, all but the last of them with a full queue. -/
theorem rounds_inTime (y : System) (hfits : l.Fits o start.size) (left : Nat) (progress : Progress)
    (h : Stands c o l start log false s.device index index) (hindex : index + left ≤ o.virtines.toNat) :
    InTime y (fun next => next.1 = ⟨progress.rounds + (left + 99) / 100, progress.reclaimed + left⟩ ∧
        Stands c o l start log false next.2.device (index + left) (index + left))
      (rounds y l progress left index s) := by
  -- strong induction on what is left, as a round takes more than one virtine
  induction left using Nat.strong_induction_on generalizing progress index s with
  | _ left ih =>
    by_cases hzero : left = 0
    · subst hzero
      rw [rounds, if_pos rfl]
      exact .done ⟨rfl, h⟩
    · obtain ⟨count, hcount⟩ : ∃ count, count = min maxVirtines left := ⟨_, rfl⟩
      have hmax : count = min 100 left := hcount
      have hfull : count ≤ maxVirtines := by omega
      have hround := round_inTime y hfits progress h (by omega) hfull
      rw [rounds, if_neg hzero, ← hcount]
      dsimp only
      generalize round y l progress count index s = answer at hround
      cases hround with
      | timedOut pending round hy => exact .timedOut pending round hy
      | @done next hdone =>
        obtain ⟨hprogress, hnext⟩ := hdone
        have hrest := ih (left - count) (by omega) next.1 hnext (by omega)
        have hnumber : index + count + (left - count) = index + left := by omega
        have hrounded : progress.rounds + 1 + (left - count + 99) / 100 = progress.rounds + (left + 99) / 100 := by omega
        have hreclaimed : progress.reclaimed + count + (left - count) = progress.reclaimed + left := by omega
        obtain ⟨progress', s'⟩ := next
        rw [hnumber, hprogress, hrounded, hreclaimed] at hrest
        obtain rfl : progress' = _ := hprogress
        exact hrest

end

end Session

end VirtineCleaning

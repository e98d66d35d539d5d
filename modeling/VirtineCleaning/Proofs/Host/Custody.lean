import VirtineCleaning.Proofs.Device.Head
import VirtineCleaning.Proofs.Host.Simulation
import VirtineCleaning.Proofs.Host.Transfers

/-!
# The custody of clean virtines

A virtine that was taken off the Complete Queue is either in the hands of the host, who has read its address to the high half, or
it is latched at `completeHead` for the rest of the read. What a host has read is known from its transfers alone. So whatever a
host does, in ranges, commands and calls of any kind, with passes in between, the virtines that it was given and the one that is
offered next are the first of those cleaned (`reclaim_of_run`). A reclaim that answers none has nothing to give, with one
exception: a read of the low half latches the zero of an empty queue, too, and the next read of the high half gives it out though
virtines may have been cleaned since.
-/

namespace VirtineCleaning

open History

/-! ## What a host has read -/

/-- What a host has read at `completeHead`: the words that it read to the end, and the low half of one that it did not. -/
structure HeadReads where
  words : List Word := []
  low : Option HalfWord := none
deriving DecidableEq

namespace HeadReads

/-- One more transfer: a read of the whole register shows a word, and a read of the high half completes the one whose low half was
read last. -/
def note (r : HeadReads) : Transfer → HeadReads
  | .read offset buffer _ =>
    match headPart? offset buffer.length, r.low with
    | some .full, _ => ⟨r.words ++ [Word.ofBytes buffer], none⟩
    | some .low, _ => { r with low := some (HalfWord.ofBytes buffer) }
    | some .high, some low => ⟨r.words ++ [Word.join (HalfWord.ofBytes buffer) low], none⟩
    | _, _ => r
  | _ => r

/-- What was read in the course of transfers. -/
def ofTrace (trace : List Transfer) : HeadReads := trace.foldl note {}

/-- The words that stand for virtines; zero stands for none. -/
def returned (r : HeadReads) : List Word := r.words.filter (· ≠ 0)

theorem ofTrace_concat (trace : List Transfer) (t : Transfer) : ofTrace (trace ++ [t]) = (ofTrace trace).note t := by
  simp [ofTrace]

/-- A read that does not fall on the register tells nothing about it. -/
theorem note_elsewhere (r : HeadReads) {offset : Word} {buffer : List UInt8} (count : Nat)
    (h : headPart? offset buffer.length = none) : r.note (.read offset buffer count) = r := by
  simp [note, h]

/-- A read of the whole register completes a word. -/
theorem note_full (r : HeadReads) (w : Word) (count : Nat) :
    r.note (.read Register.completeHead.address w.bytes count) = ⟨r.words ++ [w], none⟩ := by
  have hpart : headPart? Register.completeHead.address 8 = some .full := by decide
  simp [note, hpart]

/-- A read of the low half begins one. -/
theorem note_low (r : HeadReads) (half : HalfWord) (count : Nat) :
    r.note (.read Register.completeHead.address half.bytes count) = { r with low := some half } := by
  have hpart : headPart? Register.completeHead.address 4 = some .low := by decide
  simp [note, hpart]

/-- A read of the high half completes the one that was begun, if any. -/
theorem note_high (r : HeadReads) (half : HalfWord) (count : Nat) :
    r.note (.read (Register.completeHead.address + 4) half.bytes count) =
      match r.low with
      | some low => ⟨r.words ++ [Word.join half low], none⟩
      | none => r := by
  have hpart : headPart? (Register.completeHead.address + 4) 4 = some .high := by decide
  simp only [note, HalfWord.length_bytes, hpart, HalfWord.ofBytes_bytes]
  cases r.low <;> rfl

/-- A word more is returned, unless it is zero. -/
theorem returned_concat (words : List Word) (w : Word) (low : Option HalfWord) :
    (⟨words ++ [w], low⟩ : HeadReads).returned = words.filter (· ≠ 0) ++ [w].filter (· ≠ 0) := List.filter_append ..

end HeadReads

/-! ## Returned, latched or waiting -/

namespace Device

/-- The virtines that left the Complete Queue were returned to the host, or are latched. The low half that the host has read is
that of the latched word. -/
structure Custody (d : Device) (h : History) (r : HeadReads) : Prop where
  balanced : d.Balanced h
  low : r.low = d.completeHeadLatch.map Word.low
  reclaimed : (reclaimed h).map Address.word = r.returned ++ d.completeHeadLatch.toList.filter (· ≠ 0)

namespace Custody

variable {d : Device} {h : History} {r : HeadReads}

/-- What was cleaned was returned, is offered, or waits behind that. -/
theorem cleaned_eq (hc : d.Custody h r) :
    (cleaned h).map Address.word =
      r.returned ++ ([d.offered].filter (· ≠ 0) ++ (d.readCompleteHead .full).2.completeWords) := by
  have hcleaned := congrArg (List.map Address.word) hc.balanced.cleaned_eq
  rw [List.map_append, hc.reclaimed, List.append_assoc] at hcleaned
  rw [hcleaned]
  cases hlatch : d.completeHeadLatch with
  | some w =>
    rw [offered, hlatch, completeWords, complete_readCompleteHead hlatch]
    rfl
  | none =>
    rw [← completeWords_readCompleteHead hc.balanced.complete_holds hlatch]
    rfl

/-- A read of the whole register or of its low half takes what is offered off the queue, unless it is latched. -/
theorem taken (hc : d.Custody h r) {offset : Word} {length : Nat}
    (hevents : d.readEvents offset length = if d.completeHeadLatch.isNone then d.dequeueEvents else []) :
    (History.reclaimed (h ++ d.readEvents offset length)).map Address.word = r.returned ++ [d.offered].filter (· ≠ 0) := by
  rw [reclaimed_append, List.map_append, hc.reclaimed, hevents]
  cases hlatch : d.completeHeadLatch with
  | some w =>
    rw [offered, hlatch]
    simp [History.reclaimed]
  | none =>
    obtain ⟨-, -, htaken⟩ := dequeue_offers hc.balanced.complete_holds hlatch
    simp only [Option.isNone_none, if_true, htaken, Option.toList_none, List.filter_nil, List.append_nil]

/-- A read of the whole register gives out what is offered. -/
theorem read_full (hc : d.Custody h r) :
    (d.read Register.completeHead.address 8).2.Custody (h ++ d.readEvents Register.completeHead.address 8)
      ⟨r.words ++ [d.offered], none⟩ := by
  have hdec : decode Register.completeHead.address 8 = .register .completeHead .full := by decide
  have htaken := hc.taken (by rw [readEvents, hdec, reclaims])
  have hbalanced := hc.balanced.read Register.completeHead.address 8
  rw [read_head_whole] at hbalanced ⊢
  refine ⟨hbalanced, ?_, ?_⟩
  · rw [latch_readCompleteHead]
    rfl
  · rw [latch_readCompleteHead, htaken, HeadReads.returned_concat]
    simp [HeadReads.returned]

/-- A read of the low half latches it. -/
theorem read_low (hc : d.Custody h r) :
    (d.read Register.completeHead.address 4).2.Custody (h ++ d.readEvents Register.completeHead.address 4)
      { r with low := some d.offered.low } := by
  have hdec : decode Register.completeHead.address 4 = .register .completeHead .low := by decide
  have htaken := hc.taken (by rw [readEvents, hdec, reclaims])
  have hbalanced := hc.balanced.read Register.completeHead.address 4
  rw [read_head_low, readCompleteHead_full hc.balanced.complete_holds] at hbalanced ⊢
  exact ⟨hbalanced, rfl, htaken⟩

/-- A read of the high half gives out what is latched, and nothing where nothing is. -/
theorem read_high (hc : d.Custody h r) :
    (d.read (Register.completeHead.address + 4) 4).2.Custody (h ++ d.readEvents (Register.completeHead.address + 4) 4)
      (match d.completeHeadLatch with
      | some w => ⟨r.words ++ [w], none⟩
      | none => r) := by
  have hdec : decode (Register.completeHead.address + 4) 4 = .register .completeHead .high := by decide
  have hevents : d.readEvents (Register.completeHead.address + 4) 4 = [] := by simp [readEvents, reclaims, hdec]
  have hbalanced := hc.balanced.read (Register.completeHead.address + 4) 4
  rw [hevents, List.append_nil] at hbalanced ⊢
  cases hlatch : d.completeHeadLatch with
  | some w =>
    have hreclaimed := hc.reclaimed
    rw [hlatch] at hreclaimed
    rw [read_head_high hlatch] at hbalanced ⊢
    refine ⟨hbalanced, rfl, ?_⟩
    rw [hreclaimed, HeadReads.returned_concat]
    simp [HeadReads.returned]
  | none =>
    rw [read_head_high_of_none hlatch]
    exact hc

/-- Every read over the bus keeps the custody, if what it shows is noted. -/
theorem read (hc : d.Custody h r) (offset : Word) (buffer : List UInt8) (count : Nat) :
    (d.read offset buffer.length).2.Custody (h ++ d.readEvents offset buffer.length)
      (r.note (.read offset (Device.bus.read offset buffer d).1.2 count)) := by
  have hlength := Device.bus.length_read offset buffer d
  cases hpart : headPart? offset buffer.length with
  | none =>
    rw [r.note_elsewhere count (by rw [hlength, hpart]), d.read_of_not_reads (not_reads_of_headPart? hpart),
      d.readEvents_of_headPart? hpart, List.append_nil]
    exact hc
  | some part =>
    have haccess := headAccess_of_headPart? hpart
    generalize hl : buffer.length = length at haccess
    cases haccess with
    | full =>
      rw [bus_read d.read_head_whole hl, r.note_full, readCompleteHead_full hc.balanced.complete_holds]
      exact hc.read_full
    | low =>
      rw [bus_read d.read_head_low hl, r.note_low, readCompleteHead_full hc.balanced.complete_holds]
      exact hc.read_low
    | high =>
      have hread := hc.read_high
      cases hlatch : d.completeHeadLatch with
      | some w =>
        have hlow : r.low = some w.low := by rw [hc.low, hlatch, Option.map_some]
        rw [hlatch] at hread
        rw [bus_read (read_head_high hlatch) hl, r.note_high, hlow]
        dsimp only
        rw [Word.join_high_low]
        exact hread
      | none =>
        have hlow : r.low = none := by rw [hc.low, hlatch, Option.map_none]
        rw [hlatch] at hread
        rw [bus_read (read_head_high_of_none hlatch) hl, r.note_high, hlow]
        exact hread

end Custody

end Device

namespace Machine

variable {μ : Type} [VirtineMemory μ] {m : Machine μ} {h : History} {r : HeadReads}

/-- Only a read takes an address off the Complete Queue. -/
theorem reclaimed_events (m : Machine μ) {a : Action} (ha : ∀ offset length, a ≠ .read offset length) :
    reclaimed (m.events a) = [] := by
  cases a with
  | read offset length => exact absurd rfl (ha offset length)
  | write offset bytes =>
    simp only [events, Device.writeEvents, Device.submitEvents]
    split
    · split
      · rfl
      · split <;> rfl
    · split <;> rfl
  | processReadyQueue =>
    simp only [events, reclaimed, List.filterMap_map, List.filterMap_eq_nil_iff]
    exact fun _ _ => rfl
  | work =>
    simp only [events]
    split <;> rfl
  | _ => rfl

/-- So everything else that is done to a machine keeps the custody. -/
theorem custody_apply (hc : m.device.Custody h r) {a : Action} (ha : ∀ offset length, a ≠ .read offset length) :
    (m.apply a).device.Custody (h ++ m.events a) r := by
  have hreads : a.reads .completeHead = false := by
    cases a with
    | read offset length => exact absurd rfl (ha offset length)
    | _ => rfl
  have hlatch := m.latch_apply hreads
  refine ⟨balanced_apply a hc.balanced, ?_, ?_⟩
  · rw [hlatch]
    exact hc.low
  · rw [hlatch, reclaimed_append, m.reclaimed_events ha, List.append_nil]
    exact hc.reclaimed

/-- Where a zero is latched, it was before, or it was latched by a read of the low half on an empty queue. -/
theorem latch_of_apply (hb : m.device.Balanced h) {a : Action} (ha : (m.apply a).device.completeHeadLatch = some 0) :
    m.device.completeHeadLatch = some 0 ∨
      m.device.completeHeadLatch = none ∧ m.device.complete.toList = [] ∧
        (m.apply a).device = (m.device.read Register.completeHead.address 4).2 := by
  have hkept : a.reads .completeHead = false → m.device.completeHeadLatch = some 0 :=
    fun hreads => (m.latch_apply hreads).symm.trans ha
  cases a with
  | read offset length =>
    cases hpart : headPart? offset length with
    | none => exact Or.inl (hkept (not_reads_of_headPart? hpart))
    | some part =>
      have haccess := headAccess_of_headPart? hpart
      simp only [apply, mapDevice] at ha ⊢
      cases haccess with
      | full =>
        rw [Device.read_head_whole, Device.latch_readCompleteHead] at ha
        cases ha
      | low =>
        rw [Device.read_head_low, Device.readCompleteHead_full hb.complete_holds] at ha
        rcases Device.offered_eq_zero_iff.1 (Option.some.inj ha) with hlatch | ⟨hlatch, hempty⟩
        · exact Or.inl hlatch
        · exact Or.inr ⟨hlatch, hempty, rfl⟩
      | high =>
        cases hlatch : m.device.completeHeadLatch with
        | some w =>
          rw [Device.read_head_high hlatch] at ha
          cases ha
        | none =>
          rw [Device.read_head_high_of_none hlatch, hlatch] at ha
          cases ha
  | _ => exact Or.inl (hkept rfl)

end Machine

/-! ## Whatever a host does -/

/-- At one of the moments nothing was latched and the Complete Queue was empty. A read of the low half of `completeHead` then
latched a zero, and that has been latched ever since. -/
def StaleZero (passed : List Moment) : Prop :=
  ∃ before p q after, passed = before ++ p :: q :: after ∧ p.device.completeHeadLatch = none ∧
    p.device.complete.toList = [] ∧ q.device = (p.device.read Register.completeHead.address 4).2 ∧
    ∀ r ∈ q :: after, r.device.completeHeadLatch = some 0

/-- One turn: something that a host does, or something that is done to the device in between and is no access. -/
inductive HostTurn where
  | call (c : HostCall)
  | between (a : Action) (h : a.isAccess = false)

namespace Chronicle

variable {μ : Type} [VirtineMemory μ]

/-- The window of a machine, accesses to which are chronicled and written down. -/
def traced : Bus (Chronicle μ × List Transfer) := bus.traced

/-- A chronicle and the transfers of the host after one more turn. -/
def take (s : Chronicle μ × List Transfer) : HostTurn → Chronicle μ × List Transfer
  | .call c => (c.carryOut traced s).2
  | .between a _ => (s.1.act a, s.2)

/-- A chronicle and the transfers of the host after turns, one after the other. -/
def takeAll (s : Chronicle μ × List Transfer) (turns : List HostTurn) : Chronicle μ × List Transfer := turns.foldl take s

/-- The chronicle of a machine whose device is new. -/
def fresh (memory : μ) (batchFactor : Word) (line : Line) : Chronicle μ :=
  let m := Machine.fresh memory batchFactor line
  { machine := m, passed := [⟨m.device, []⟩] }

/-- What every turn keeps: the custody of the virtines, and where a latched zero comes from. -/
structure Guarded (s : Chronicle μ × List Transfer) : Prop where
  custody : s.1.machine.device.Custody s.1.history (HeadReads.ofTrace s.2)
  last : s.1.passed.getLast? = some s.1.now
  stale : s.1.machine.device.completeHeadLatch = some 0 → StaleZero s.1.passed

namespace Guarded

variable {s : Chronicle μ × List Transfer}

omit [VirtineMemory μ] in
theorem fresh (memory : μ) (batchFactor : Word) (line : Line) : Guarded (Chronicle.fresh memory batchFactor line, []) where
  custody := ⟨Device.Balanced.fresh batchFactor line, rfl, rfl⟩
  last := rfl
  stale h := nomatch h

/-- An action that keeps the custody of the virtines keeps the rest. -/
theorem act (hg : Guarded s) {a : Action} {trace : List Transfer}
    (hcustody : (s.1.act a).machine.device.Custody (s.1.act a).history (HeadReads.ofTrace trace)) :
    Guarded (s.1.act a, trace) where
  custody := hcustody
  last := s.1.last_act a
  stale := by
    intro hzero
    rcases Machine.latch_of_apply hg.custody.balanced hzero with hlatch | ⟨hlatch, hempty, hread⟩
    · obtain ⟨before, p, q, after, hpassed, hnone, hempty, hread, hsince⟩ := hg.stale hlatch
      refine ⟨before, p, q, after ++ [(s.1.act a).now], ?_, hnone, hempty, hread, ?_⟩
      · rw [Chronicle.act, hpassed, List.append_assoc]
        rfl
      · intro r hr
        rw [← List.cons_append, List.mem_append] at hr
        rcases hr with hr | hr
        · exact hsince r hr
        · rw [List.mem_singleton.1 hr]
          exact hzero
    · obtain ⟨before, hbefore⟩ := List.getLast?_eq_some_iff.1 hg.last
      refine ⟨before, s.1.now, (s.1.act a).now, [], ?_, hlatch, hempty, hread, ?_⟩
      · rw [Chronicle.act, hbefore, List.append_assoc]
        rfl
      · intro r hr
        rw [List.mem_singleton.1 hr]
        exact hzero

/-- A host keeps it by every access. -/
theorem call (hg : Guarded s) (c : HostCall) : Guarded (c.carryOut traced s).2 := by
  refine Bus.keeps_carryOut ?_ ?_ ?_ c hg
  · intro offset buffer s hg
    refine hg.act ?_
    rw [HeadReads.ofTrace_concat]
    exact hg.custody.read offset buffer _
  · intro offset bytes s hg
    refine hg.act ?_
    rw [HeadReads.ofTrace_concat]
    exact Machine.custody_apply hg.custody nofun
  · intro s hg
    refine hg.act ?_
    rw [HeadReads.ofTrace_concat]
    exact Machine.custody_apply hg.custody nofun

/-- Every turn keeps it. -/
theorem take (hg : Guarded s) (turn : HostTurn) : Guarded (Chronicle.take s turn) := by
  cases turn with
  | call c => exact hg.call c
  | between a ha =>
    refine hg.act (Machine.custody_apply hg.custody ?_)
    rintro offset length rfl
    cases ha

/-- So every run does. -/
theorem takeAll (hg : Guarded s) (turns : List HostTurn) : Guarded (Chronicle.takeAll s turns) :=
  List.foldlRecOn turns Chronicle.take hg fun _ hg turn _ => hg.take turn

end Guarded

/-- A read of a half shows it, and notes that it did. -/
theorem traced_readHalf (c : Chronicle μ) (trace : List Transfer) {offset : Word} {half : HalfWord} {e : Device}
    (h : c.machine.device.read offset 4 = (some half.bytes, e)) :
    traced.readHalf offset (c, trace) = (half, (c.act (.read offset 4), trace ++ [.read offset half.bytes 4])) := by
  have hmoved : (Machine.window.read offset (List.replicate 4 0) c.machine).1 = (4, half.bytes) := by
    change (Device.bus.read offset (List.replicate 4 0) c.machine.device).1 = (4, half.bytes)
    rw [Device.bus_read h List.length_replicate]
  rw [Bus.readHalf_run]
  simp only [traced, Bus.traced, bus, hmoved, HalfWord.ofBytes_bytes, List.length_replicate]

/-- A reclaim answers what is offered, or none, and the host has read that to the end. -/
theorem reclaim_traced {c : Chronicle μ} (hb : c.machine.device.complete.Holds c.machine.device.complete.toList)
    (trace : List Transfer) :
    let w := c.machine.device.offered
    ∃ t, Host.reclaim traced (c, trace) = (if w = 0 then none else some w, t) ∧
      t.1.machine.device.completeHeadLatch = none ∧
      (HeadReads.ofTrace t.2).returned = (HeadReads.ofTrace trace).returned ++ [w].filter (· ≠ 0) := by
  intro w
  have hlow := c.machine.device.read_head_low
  have hhigh := c.machine.device.read_head_low_high
  rw [Device.readCompleteHead_full hb] at hlow hhigh
  have hfirst := traced_readHalf c trace hlow
  have hsecond := traced_readHalf (c.act (.read Register.completeHead.address 4))
    (trace ++ [.read Register.completeHead.address w.low.bytes 4]) hhigh
  rw [Host.reclaim_run, hfirst]
  dsimp only
  rw [hsecond, Word.join_high_low]
  refine ⟨_, rfl, ?_, ?_⟩
  · change ((c.machine.device.read Register.completeHead.address 4).2.read
      (Register.completeHead.address + 4) 4).2.completeHeadLatch = none
    rw [hhigh]
    exact c.machine.device.latch_readCompleteHead
  · rw [HeadReads.ofTrace_concat, HeadReads.ofTrace_concat, HeadReads.note_low, HeadReads.note_high]
    dsimp only
    rw [HeadReads.returned_concat, Word.join_high_low]
    rfl

/-- In every state that a device can come to, by whatever a host does and whatever is done in between, a reclaim answers none
exactly if a zero is latched, or nothing is and the Complete Queue is empty. A latched zero was taken from an empty queue by a read
of the low half, and has not been given out since. A virtine that a reclaim answers was cleaned, and is the first of those cleaned
that the host was not given before by a read of `completeHead`, be it by a reclaim or otherwise. After a reclaim nothing is
latched, and the host was given what it answered. -/
theorem reclaim_of_run (memory : μ) (batchFactor : Word) (line : Line) (turns : List HostTurn) :
    let s := takeAll (fresh memory batchFactor line, []) turns
    let d := s.1.machine.device
    let reclaimed := Host.reclaim traced s
    (reclaimed.1 = none ↔ d.completeHeadLatch = some 0 ∨ d.completeHeadLatch = none ∧ d.complete.toList = []) ∧
      (d.completeHeadLatch = some 0 → StaleZero s.1.passed) ∧
      (∀ w, reclaimed.1 = some w → ∃ waiting,
        (cleaned s.1.history).map Address.word = (HeadReads.ofTrace s.2).returned ++ w :: waiting) ∧
      reclaimed.2.1.machine.device.completeHeadLatch = none ∧
      (HeadReads.ofTrace reclaimed.2.2).returned = (HeadReads.ofTrace s.2).returned ++ reclaimed.1.toList := by
  intro s d reclaimed
  have hg : Guarded s := (Guarded.fresh memory batchFactor line).takeAll turns
  obtain ⟨t, hreclaim, hlatch, hreturned⟩ := reclaim_traced hg.custody.balanced.complete_holds s.2
  have hreclaim : reclaimed = (if d.offered = 0 then none else some d.offered, t) := hreclaim
  have hanswer : [d.offered].filter (· ≠ 0) = reclaimed.1.toList := by
    rw [hreclaim]
    by_cases hzero : d.offered = 0 <;> simp [hzero]
  have hcleaned := hg.custody.cleaned_eq
  have hleft : reclaimed.2 = t := by rw [hreclaim]
  rw [hanswer] at hreturned hcleaned
  rw [hleft]
  refine ⟨?_, hg.stale, ?_, hlatch, hreturned⟩
  · rw [hreclaim, ← Device.offered_eq_zero_iff]
    by_cases hzero : d.offered = 0 <;> simp [hzero]
  · intro w hw
    rw [hw] at hcleaned
    exact ⟨_, hcleaned⟩

/-- The low half of an empty head is read, and a virtine is submitted and cleaned. A first reclaim gives out the zero, and a second
one the virtine. -/
theorem reclaim_of_run_twice :
    let turns : List HostTurn := [.call (.readAt Register.completeHead.address [0, 0, 0, 0]), .call (.call (.submit 0x1000)),
      .between .processReadyQueue rfl]
    let s := takeAll (fresh (DenseMemory.zeros 0) 1 (.ofCapacity 1), []) turns
    let t := takeAll (fresh (DenseMemory.zeros 0) 1 (.ofCapacity 1), []) (turns ++ [.call (.call .reclaim)])
    s.1.machine.device.completeHeadLatch = some 0 ∧ StaleZero s.1.passed ∧
      (Host.reclaim traced t).1 = some 0x1000 ∧
      ∃ waiting, (cleaned t.1.history).map Address.word = (HeadReads.ofTrace t.2).returned ++ 0x1000 :: waiting := by
  intro turns s t
  have hzero : s.1.machine.device.completeHeadLatch = some 0 := by decide +kernel
  have hvirtine : (Host.reclaim traced t).1 = some 0x1000 := by decide +kernel
  obtain ⟨-, hstale, -⟩ := reclaim_of_run (DenseMemory.zeros 0) 1 (.ofCapacity 1) turns
  obtain ⟨-, -, hcleaned, -⟩ := reclaim_of_run (DenseMemory.zeros 0) 1 (.ofCapacity 1) (turns ++ [.call (.call .reclaim)])
  exact ⟨hzero, hstale hzero, hvirtine, hcleaned 0x1000 hvirtine⟩

/-- There the first reclaim answers none, though a virtine waits. -/
theorem none_only_if_empty_false :
    let turns : List HostTurn := [.call (.readAt Register.completeHead.address [0, 0, 0, 0]), .call (.call (.submit 0x1000)),
      .between .processReadyQueue rfl]
    let s := takeAll (fresh (DenseMemory.zeros 0) 1 (.ofCapacity 1), []) turns
    (Host.reclaim traced s).1 = none ∧ s.1.machine.device.completeWords = [0x1000] := by
  decide +kernel

end Chronicle

end VirtineCleaning

import VirtineCleaning.Host.Basic

/-!
# Requests and their arguments

A request is carried out exactly if its number is published and its arguments begin with those of its command; otherwise no access is
made. What a refusal tells of the arguments is not always how many the command takes: it counts up to the first one that is missing
(`missing_argument_named`), so a snapshot that is requested without arguments is said to take one.
-/

namespace VirtineCleaning

namespace Request

/-- The published requests, each with the number of arguments that its command takes. -/
def published : List (HalfWord × Nat) := [(modifyBatchFactor, 1), (getMaxNumVirtines, 0), (ringDoorbell, 0), (setSnapshot, 2)]

/-- The number of arguments that a request takes; none if it is not published. -/
def arity? (number : HalfWord) : Option Nat := published.lookup number

/-- A number that is not published has no arity. -/
theorem arity?_eq_none_iff {number : HalfWord} : arity? number = none ↔ number ∉ published.map Prod.fst := by
  rw [arity?, List.lookup_eq_none_iff, List.mem_map]
  constructor
  · rintro h ⟨entry, hentry, rfl⟩
    exact absurd (h entry hentry) (by simp)
  · intro h entry hentry
    exact bne_iff_ne.mpr fun heq => h ⟨entry, hentry, heq.symm⟩

end Request

namespace Command

/-- The arguments that a command carries, in order. -/
def arguments : Command → List Word
  | .modifyBatchFactor value => [value]
  | .getMaxNumVirtines | .ringDoorbell => []
  | .setSnapshot address size => [address, size]

/-- Every command carries as many arguments as its request takes. -/
theorem arity?_request (c : Command) : Request.arity? c.request = some c.arguments.length := by
  cases c <;> rfl

/-- Nothing of a command is lost in its request and its arguments. -/
theorem eq_of_request {c d : Command} (hrequest : c.request = d.request) (harguments : c.arguments = d.arguments) : c = d := by
  cases c with
  | modifyBatchFactor value =>
    cases d with
    | modifyBatchFactor =>
      cases harguments
      rfl
    | _ => cases harguments
  | getMaxNumVirtines =>
    cases d with
    | getMaxNumVirtines => rfl
    | ringDoorbell => exact absurd hrequest (by decide)
    | _ => cases harguments
  | ringDoorbell =>
    cases d with
    | ringDoorbell => rfl
    | getMaxNumVirtines => exact absurd hrequest (by decide)
    | _ => cases harguments
  | setSnapshot address size =>
    cases d with
    | setSnapshot =>
      cases harguments
      rfl
    | _ => cases harguments

/-- What a request is read as: its number is not published, or an argument is missing, or its arguments begin with those of a
command. -/
inductive Reading (number : HalfWord) (given : List Word) : Except RequestError Command → Prop where
  | unknown (hnumber : Request.arity? number = none) : Reading number given (.error (.invalidCommand number))
  | missing {n : Nat} (hnumber : Request.arity? number = some n) (hgiven : given.length < n) :
      Reading number given (.error (.missingArgument number (given.length + 1)))
  | command {c : Command} (hnumber : c.request = number) (hgiven : c.arguments <+: given) : Reading number given (.ok c)

theorem reading (number : HalfWord) (given : List Word) : Reading number given (ofRequest number given) := by
  unfold ofRequest
  by_cases hbatch : number = Request.modifyBatchFactor
  · subst hbatch
    rw [if_pos rfl]
    cases given with
    | nil => exact .missing (n := 1) rfl (by decide)
    | cons value rest => exact .command rfl ⟨rest, rfl⟩
  rw [if_neg hbatch]
  by_cases hmax : number = Request.getMaxNumVirtines
  · rw [if_pos hmax]
    exact .command hmax.symm ⟨given, rfl⟩
  rw [if_neg hmax]
  by_cases hring : number = Request.ringDoorbell
  · rw [if_pos hring]
    exact .command hring.symm ⟨given, rfl⟩
  rw [if_neg hring]
  by_cases hsnapshot : number = Request.setSnapshot
  · subst hsnapshot
    rw [if_pos rfl]
    rcases given with _ | ⟨address, _ | ⟨size, rest⟩⟩
    · exact .missing (n := 2) rfl (by decide)
    · exact .missing (n := 2) rfl (by simp)
    · exact .command rfl ⟨rest, rfl⟩
  · rw [if_neg hsnapshot]
    exact .unknown (Request.arity?_eq_none_iff.mpr (by simp [Request.published, hbatch, hmax, hring, hsnapshot]))

/-- The arguments that a command is made of are the first that are given. -/
theorem ofRequest_eq_ok_iff {number : HalfWord} {given : List Word} {c : Command} :
    ofRequest number given = .ok c ↔ c.request = number ∧ c.arguments <+: given := by
  have hreading := reading number given
  generalize ofRequest number given = answer at hreading
  constructor
  · rintro rfl
    cases hreading with
    | command hnumber hgiven => exact ⟨hnumber, hgiven⟩
  · rintro ⟨rfl, hgiven⟩
    have harity := c.arity?_request
    cases hreading with
    | unknown hnone => simp [harity] at hnone
    | missing hn hfew =>
      rw [harity, Option.some.injEq] at hn
      have hlength := hgiven.length_le
      omega
    | @command d hnumber hgiven' =>
      have hlength : d.arguments.length = c.arguments.length := by
        have harity' := d.arity?_request
        rw [hnumber, harity, Option.some.injEq] at harity'
        exact harity'.symm
      have harguments : d.arguments = c.arguments :=
        (List.prefix_of_prefix_length_le hgiven' hgiven (Nat.le_of_eq hlength)).eq_of_length hlength
      rw [eq_of_request hnumber harguments]

/-- A request is published if and only if it is not refused as no command. -/
theorem ofRequest_eq_invalidCommand_iff {number : HalfWord} {given : List Word} :
    ofRequest number given = .error (.invalidCommand number) ↔ Request.arity? number = none := by
  have hreading := reading number given
  generalize ofRequest number given = answer at hreading
  cases hreading with
  | unknown hnone => exact iff_of_true rfl hnone
  | missing hn => exact iff_of_false nofun (by simp [hn])
  | @command c hnumber => exact iff_of_false nofun (by simp [← hnumber, c.arity?_request])

/-- Of a published request that takes `n` arguments, a command comes out where there are as many. -/
theorem exists_ofRequest {number : HalfWord} {given : List Word} {n : Nat} (hn : Request.arity? number = some n)
    (hgiven : n ≤ given.length) : ∃ c, ofRequest number given = .ok c ∧ c.request = number ∧ c.arguments = given.take n := by
  have hreading := reading number given
  generalize ofRequest number given = answer at hreading
  cases hreading with
  | unknown hnone => simp [hn] at hnone
  | missing hm hfew =>
    rw [hn, Option.some.injEq] at hm
    omega
  | @command c hnumber hprefix =>
    have harity := c.arity?_request
    rw [hnumber, hn, Option.some.injEq] at harity
    exact ⟨c, rfl, hnumber, harity ▸ List.prefix_iff_eq_take.mp hprefix⟩

/-- Where there are fewer, the refusal counts up to the first that is missing. -/
theorem ofRequest_of_length_lt {number : HalfWord} {given : List Word} {n : Nat} (hn : Request.arity? number = some n)
    (hgiven : given.length < n) : ofRequest number given = .error (.missingArgument number (given.length + 1)) := by
  have hreading := reading number given
  generalize ofRequest number given = answer at hreading
  cases hreading with
  | unknown hnone => simp [hn] at hnone
  | missing => rfl
  | @command c hnumber hprefix =>
    have harity := c.arity?_request
    have hlength := hprefix.length_le
    rw [hnumber, hn, Option.some.injEq] at harity
    omega

/-- Only a request for a snapshot takes more than one argument. -/
theorem eq_setSnapshot {number : HalfWord} {n : Nat} (hn : Request.arity? number = some n) (hmany : 1 < n) :
    number = Request.setSnapshot ∧ n = 2 := by
  obtain ⟨before, after, hpublished, -⟩ := List.lookup_eq_some_iff.mp hn
  have hmem : (number, n) ∈ Request.published := by
    rw [hpublished]
    exact List.mem_append_right _ List.mem_cons_self
  simp only [Request.published, List.mem_cons, Prod.mk.injEq, List.not_mem_nil, or_false] at hmem
  obtain ⟨-, rfl⟩ | ⟨-, rfl⟩ | ⟨-, rfl⟩ | hsnapshot := hmem
  · omega
  · omega
  · omega
  · exact hsnapshot

end Command

namespace Host

variable {σ : Type}

/-- A refusal is that of the decoding, and it comes before any access. -/
theorem request_eq_error_iff (bus : Bus σ) {number : HalfWord} {given : List Word} {e : RequestError} {s t : σ} :
    request bus number given s = (.error e, t) ↔ Command.ofRequest number given = .error e ∧ t = s := by
  unfold request
  cases Command.ofRequest number given with
  | error d =>
    constructor
    · rintro ⟨⟩
      exact ⟨rfl, rfl⟩
    · rintro ⟨⟨⟩, rfl⟩
      rfl
  | ok c =>
    refine iff_of_false ?_ nofun
    intro h
    exact nomatch congrArg Prod.fst h

end Host

namespace Command

/-- For every number and all arguments: a request is no command exactly if its number is not one of the four published. A published
request is carried out exactly if its arguments begin with those of its command, which it is then made of; so it is where there are as
many as it takes, and any further ones are ignored. Where there are fewer, the refusal tells the number of the first one that is
missing, which is how many the request takes unless a snapshot is requested without any. A refusal comes before any access. -/
theorem missing_argument_named (number : HalfWord) (given : List Word) :
    (ofRequest number given = .error (.invalidCommand number) ↔
      number ∉ [Request.modifyBatchFactor, Request.getMaxNumVirtines, Request.ringDoorbell, Request.setSnapshot]) ∧
    (∀ c, ofRequest number given = .ok c ↔ c.request = number ∧ c.arguments <+: given) ∧
    (∀ n, Request.arity? number = some n →
      (n ≤ given.length →
        ∃ c, ofRequest number given = .ok c ∧ c.request = number ∧ c.arguments = given.take n) ∧
      (given.length < n →
        ofRequest number given = .error (.missingArgument number (given.length + 1)) ∧
        (given.length + 1 = n ↔ ¬(number = Request.setSnapshot ∧ given = [])))) ∧
    ∀ {σ : Type} (bus : Bus σ) (s : σ) (trace : List Transfer) (e : RequestError),
      (Host.request bus.traced number given (s, trace)).1 = .error e →
        ofRequest number given = .error e ∧ (Host.request bus.traced number given (s, trace)).2 = (s, trace) := by
  refine ⟨ofRequest_eq_invalidCommand_iff.trans Request.arity?_eq_none_iff, fun c => ofRequest_eq_ok_iff, ?_, ?_⟩
  · intro n hn
    refine ⟨exists_ofRequest hn, fun hfew => ⟨ofRequest_of_length_lt hn hfew, ?_, ?_⟩⟩
    · rintro hone ⟨rfl, rfl⟩
      cases hn
      cases hone
    · intro hsome
      rcases Nat.lt_or_eq_of_le hfew with hmore | hone
      · obtain ⟨hsnapshot, rfl⟩ := eq_setSnapshot hn (by omega)
        exact absurd ⟨hsnapshot, List.eq_nil_of_length_eq_zero (by omega)⟩ hsome
      · exact hone
  · intro σ bus s trace e herror
    exact (Host.request_eq_error_iff bus.traced).mp (Prod.ext herror rfl)

/-- A snapshot takes an address and a size, but without either the refusal says that it takes one argument. -/
theorem snapshot_without_arguments :
    Request.arity? Request.setSnapshot = some 2 ∧
      ofRequest Request.setSnapshot [] = .error (.missingArgument Request.setSnapshot 1) ∧
      ofRequest Request.setSnapshot [] ≠ .error (.missingArgument Request.setSnapshot 2) ∧
      (RequestError.missingArgument Request.setSnapshot 1).message = "request 0x40104633 takes 1 argument(s)" :=
  ⟨rfl, rfl, nofun, rfl⟩

end Command

end VirtineCleaning

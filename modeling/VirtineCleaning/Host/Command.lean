import VirtineCleaning.Word

/-!
# Commands

What a host asks of the device besides plain reads and writes of the window. A command comes in as a request number
and its arguments; the number packs the direction of the transfer, its size, a type letter and an index.
-/

namespace VirtineCleaning

/-- What a host asks of the device. -/
inductive Command where
  /-- Clean this many virtines for each notification. -/
  | modifyBatchFactor (value : Word)
  | getMaxNumVirtines
  | ringDoorbell
  /-- Clean with the `size` bytes at `address` from now on. -/
  | setSnapshot (address size : Word)
deriving DecidableEq, Repr

/-- Why a request is no command. -/
inductive RequestError where
  | invalidCommand (request : HalfWord)
  | missingArgument (request : HalfWord) (expected : Nat)
deriving DecidableEq, Repr

/-- A number in eight hexadecimal digits. -/
def HalfWord.hex (h : HalfWord) : String :=
  let digits := Word.hexDigits h.toNat
  "0x" ++ String.ofList (List.replicate (8 - digits.length) '0') ++ digits

/-- The wording of a refused request. -/
def RequestError.message : RequestError → String
  | .invalidCommand request => s!"invalid command request {HalfWord.hex request}"
  | .missingArgument request expected => s!"request {HalfWord.hex request} takes {expected} argument(s)"

namespace Request

/-- The direction of a request's transfer, as its number encodes it. -/
inductive Direction where
  | none
  | write
  | read
deriving DecidableEq, Repr

/-- The bits of a direction. -/
def Direction.bits : Direction → HalfWord
  | .none => 0
  | .write => 1
  | .read => 2

/-- A request number: direction, size, the type letter `F` and an index, from the highest bits down. -/
def number (direction : Direction) (index size : HalfWord) : HalfWord :=
  direction.bits * 0x40000000 + size * 0x10000 + 0x4600 + index

/-- The request that sets the batch factor; it takes one word. -/
def modifyBatchFactor : HalfWord := number .read 0x30 8

/-- The request that asks how many virtines a ring can hold. -/
def getMaxNumVirtines : HalfWord := number .write 0x31 8

/-- The request that rings the doorbell. -/
def ringDoorbell : HalfWord := number .none 0x32 0

/-- The request that chooses the snapshot; it takes an address and a size. -/
def setSnapshot : HalfWord := number .write 0x33 16

/-- The published numbers. -/
theorem numbers_eq :
    [modifyBatchFactor, getMaxNumVirtines, ringDoorbell, setSnapshot] =
      [0x80084630, 0x40084631, 0x00004632, 0x40104633] := by decide

end Request

namespace Command

/-- The request number of a command. -/
def request : Command → HalfWord
  | .modifyBatchFactor _ => Request.modifyBatchFactor
  | .getMaxNumVirtines => Request.getMaxNumVirtines
  | .ringDoorbell => Request.ringDoorbell
  | .setSnapshot .. => Request.setSnapshot

/-- The command that a request number and its arguments stand for. Further arguments are ignored; an argument that is
missing is reported by the number of arguments up to it. -/
def ofRequest (request : HalfWord) (arguments : List Word) : Except RequestError Command :=
  if request = Request.modifyBatchFactor then
    match arguments with
    | value :: _ => .ok (.modifyBatchFactor value)
    | [] => .error (.missingArgument request 1)
  else if request = Request.getMaxNumVirtines then .ok .getMaxNumVirtines
  else if request = Request.ringDoorbell then .ok .ringDoorbell
  else if request = Request.setSnapshot then
    match arguments with
    | address :: size :: _ => .ok (.setSnapshot address size)
    | [_] => .error (.missingArgument request 2)
    | [] => .error (.missingArgument request 1)
  else .error (.invalidCommand request)

end Command

end VirtineCleaning

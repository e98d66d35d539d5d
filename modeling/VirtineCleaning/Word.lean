/-!
# Words

The device moves 64-bit words over a 32-bit bus, least significant byte first. This module holds the words, their
32-bit halves, their bytes and their text in decimal and hexadecimal digits.
-/

namespace VirtineCleaning

/-- A 64-bit word: a register value, an address or a number of bytes. -/
abbrev Word := UInt64

/-- Half of a word, as one access of the 32-bit bus moves it. -/
abbrev HalfWord := UInt32

/-- The `n` lowest bytes of a number, least significant first. -/
def littleEndian : Nat → Nat → List UInt8
  | 0, _ => []
  | n + 1, v => UInt8.ofNat v :: littleEndian n (v / 256)

/-- The number that bytes stand for, least significant first. -/
def ofLittleEndian : List UInt8 → Nat
  | [] => 0
  | b :: bs => b.toNat + 256 * ofLittleEndian bs

@[simp] theorem length_littleEndian (n v : Nat) : (littleEndian n v).length = n := by
  induction n generalizing v with
  | zero => rfl
  | succ n ih => simp [littleEndian, ih]

namespace Word

/-- Bits 0 to 31 of a word. -/
def low (w : Word) : HalfWord := w.toUInt32

/-- Bits 32 to 63 of a word. -/
def high (w : Word) : HalfWord := (w / 0x100000000).toUInt32

/-- The word with the given halves. -/
def join (high low : HalfWord) : Word := high.toUInt64 * 0x100000000 + low.toUInt64

/-- The eight bytes of a word. -/
def bytes (w : Word) : List UInt8 := littleEndian 8 w.toNat

/-- The word that at most eight bytes stand for. -/
def ofBytes (bs : List UInt8) : Word := UInt64.ofNat (ofLittleEndian bs)

/-- A number in lowercase hexadecimal, without leading zeros. -/
def hexDigits (n : Nat) : String := String.ofList (Nat.toDigits 16 n)

/-- A word as `0x` and its hexadecimal digits. -/
def hex (w : Word) : String := "0x" ++ hexDigits w.toNat

/-- The word that decimal digits stand for, which a plus sign may precede. -/
def parse? (s : String) : Option Word :=
  let digits :=
    match s.toList with
    | '+' :: rest => rest
    | all => all
  if digits.isEmpty || !digits.all Char.isDigit then none
  else
    let n := digits.foldl (fun n c => 10 * n + (c.toNat - '0'.toNat)) 0
    if n < UInt64.size then some (UInt64.ofNat n) else none

@[simp] theorem length_bytes (w : Word) : w.bytes.length = 8 := length_littleEndian 8 _

end Word

namespace HalfWord

/-- The four bytes of a half word. -/
def bytes (h : HalfWord) : List UInt8 := littleEndian 4 h.toNat

/-- The half word that at most four bytes stand for. -/
def ofBytes (bs : List UInt8) : HalfWord := UInt32.ofNat (ofLittleEndian bs)

@[simp] theorem length_bytes (h : HalfWord) : h.bytes.length = 4 := length_littleEndian 4 _

end HalfWord

end VirtineCleaning

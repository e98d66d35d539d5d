import Mathlib.Algebra.GroupWithZero.Nat
import VirtineCleaning.Word

/-!
# Words, their halves and their bytes

A word is its two halves, and the bytes of a word or of a half stand for it again.
-/

namespace VirtineCleaning

/-- Bytes give back the number, as far as they hold it. -/
theorem ofLittleEndian_littleEndian (n v : Nat) : ofLittleEndian (littleEndian n v) = v % 256 ^ n := by
  induction n generalizing v with
  | zero => simp [littleEndian, ofLittleEndian, Nat.mod_one]
  | succ n ih => simp [littleEndian, ofLittleEndian, ih, Nat.pow_succ', Nat.mod_mul]

/-- The bytes of a number are its lowest ones and then those of what is above them. -/
theorem littleEndian_add (m n v : Nat) :
    littleEndian (m + n) v = littleEndian m v ++ littleEndian n (v / 256 ^ m) := by
  induction m generalizing v with
  | zero => simp [littleEndian]
  | succ m ih =>
    have hnext : v / 256 / 256 ^ m = v / 256 ^ (m + 1) := by rw [Nat.div_div_eq_div_mul, Nat.pow_succ']
    rw [Nat.succ_add, littleEndian, ih, hnext]
    rfl

/-- What is above the bytes taken does not show in them. -/
theorem littleEndian_mod (n v : Nat) : littleEndian n (v % 256 ^ n) = littleEndian n v := by
  induction n generalizing v with
  | zero => rfl
  | succ n ih =>
    have hbyte : UInt8.ofNat (v % 256 ^ (n + 1)) = UInt8.ofNat v := by
      apply UInt8.toNat_inj.1
      rw [UInt8.toNat_ofNat', UInt8.toNat_ofNat', Nat.pow_succ']
      exact Nat.mod_mul_right_mod v 256 (256 ^ n)
    have hrest : v % 256 ^ (n + 1) / 256 = v / 256 % 256 ^ n := by
      rw [Nat.pow_succ', Nat.mod_mul_right_div_self]
    rw [littleEndian, hbyte, hrest, ih]
    rfl

/-- The number that bytes stand for has these bytes. -/
theorem littleEndian_ofLittleEndian (bs : List UInt8) : littleEndian bs.length (ofLittleEndian bs) = bs := by
  induction bs with
  | nil => rfl
  | cons b bs ih =>
    have hb := b.toNat_lt
    have hbyte : UInt8.ofNat (b.toNat + 256 * ofLittleEndian bs) = b := by
      apply UInt8.toNat_inj.1
      rw [UInt8.toNat_ofNat']
      omega
    have hrest : (b.toNat + 256 * ofLittleEndian bs) / 256 = ofLittleEndian bs := by omega
    rw [List.length_cons, littleEndian, ofLittleEndian, hbyte, hrest, ih]

namespace Word

theorem toNat_low (w : Word) : w.low.toNat = w.toNat % 2 ^ 32 := by
  simp [low]

theorem toNat_high (w : Word) : w.high.toNat = w.toNat / 2 ^ 32 := by
  have := w.toNat_lt
  simp [high]
  omega

/-- Two halves make up a number. -/
theorem toNat_join (h l : HalfWord) : (join h l).toNat = h.toNat * 2 ^ 32 + l.toNat := by
  have := h.toNat_lt
  have := l.toNat_lt
  simp [join]
  omega

@[simp] theorem join_high_low (w : Word) : join w.high w.low = w := by
  apply UInt64.toNat_inj.1
  rw [toNat_join, toNat_high, toNat_low]
  omega

@[simp] theorem high_join (h l : HalfWord) : (join h l).high = h := by
  apply UInt32.toNat_inj.1
  have := l.toNat_lt
  rw [toNat_high, toNat_join]
  omega

@[simp] theorem low_join (h l : HalfWord) : (join h l).low = l := by
  apply UInt32.toNat_inj.1
  have := l.toNat_lt
  rw [toNat_low, toNat_join]
  omega

/-- The bytes of a word are those of its low half and then those of its high half. -/
theorem bytes_eq (w : Word) : w.bytes = w.low.bytes ++ w.high.bytes := by
  rw [bytes, HalfWord.bytes, HalfWord.bytes, toNat_low, toNat_high]
  calc littleEndian (4 + 4) w.toNat
      = littleEndian 4 w.toNat ++ littleEndian 4 (w.toNat / 256 ^ 4) := littleEndian_add 4 4 _
    _ = littleEndian 4 (w.toNat % 256 ^ 4) ++ littleEndian 4 (w.toNat / 256 ^ 4) := by rw [littleEndian_mod]

/-- The bytes give back what they are of. -/
@[simp] theorem ofBytes_bytes (w : Word) : ofBytes w.bytes = w := by
  apply UInt64.toNat_inj.1
  have := w.toNat_lt
  simp only [ofBytes, bytes, ofLittleEndian_littleEndian, UInt64.toNat_ofNat']
  omega

/-- Eight bytes are those of the word that they stand for. -/
theorem bytes_ofBytes {bs : List UInt8} (h : bs.length = 8) : (ofBytes bs).bytes = bs := by
  have hsize : 2 ^ 64 = 256 ^ bs.length := by
    rw [h]
    rfl
  rw [bytes, ofBytes, UInt64.toNat_ofNat', hsize, ← h, littleEndian_mod, littleEndian_ofLittleEndian]

/-- The low half of the word that bytes stand for is the half that they stand for. -/
theorem low_ofBytes (bs : List UInt8) : (ofBytes bs).low = HalfWord.ofBytes bs := by
  apply UInt32.toNat_inj.1
  rw [toNat_low, ofBytes, UInt64.toNat_ofNat', HalfWord.ofBytes, UInt32.toNat_ofNat']
  omega

end Word

namespace HalfWord

@[simp] theorem ofBytes_bytes (h : HalfWord) : ofBytes h.bytes = h := by
  apply UInt32.toNat_inj.1
  have := h.toNat_lt
  simp only [ofBytes, bytes, ofLittleEndian_littleEndian, UInt32.toNat_ofNat']
  omega

/-- The bytes of a half word, read as a word. -/
@[simp] theorem low_ofBytes_bytes (h : HalfWord) : (Word.ofBytes h.bytes).low = h := by
  apply UInt32.toNat_inj.1
  have := h.toNat_lt
  rw [Word.toNat_low]
  simp only [Word.ofBytes, bytes, ofLittleEndian_littleEndian, UInt64.toNat_ofNat']
  omega

/-- Four bytes are those of the half word that they stand for. -/
theorem bytes_ofBytes {bs : List UInt8} (h : bs.length = 4) : (ofBytes bs).bytes = bs := by
  have hsize : 2 ^ 32 = 256 ^ bs.length := by
    rw [h]
    rfl
  rw [bytes, ofBytes, UInt32.toNat_ofNat', hsize, ← h, littleEndian_mod, littleEndian_ofLittleEndian]

end HalfWord

end VirtineCleaning

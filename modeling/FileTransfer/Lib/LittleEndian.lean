import Mathlib.Logic.Basic
import Mathlib.Algebra.Order.Group.Nat

/-!
# Numbers as bytes, least significant first

The byte representation of a number in a field of fixed width, for which the high part of a
number that does not fit is lost.
-/

namespace LittleEndian

/-- The lowest `width` bytes of a number. -/
def encode : Nat → Nat → List UInt8
  | 0, _ => []
  | width + 1, n => UInt8.ofNat n :: encode width (n / 256)

/-- The number that a sequence of bytes stands for. -/
def decode : List UInt8 → Nat
  | [] => 0
  | byte :: high => byte.toNat + 256 * decode high

@[simp] theorem length_encode (width n : Nat) : (encode width n).length = width := by
  induction width generalizing n with
  | zero => rfl
  | succ width ih => rw [encode, List.length_cons, ih]

/-- A number that fits its field comes back. -/
theorem decode_encode {width n : Nat} (fits : n < 256 ^ width) : decode (encode width n) = n := by
  induction width generalizing n with
  | zero =>
    have zero : n = 0 := by simpa using fits
    rw [zero, encode, decode]
  | succ width ih =>
    have high : n / 256 < 256 ^ width := by
      rw [Nat.pow_succ] at fits
      exact Nat.div_lt_of_lt_mul (by omega)
    rw [encode, decode, ih high, UInt8.toNat_ofNat']
    omega

theorem decode_lt (bytes : List UInt8) : decode bytes < 256 ^ bytes.length := by
  induction bytes with
  | nil => exact Nat.one_pos
  | cons byte high ih =>
    have small := byte.toNat_lt
    rw [decode, List.length_cons, Nat.pow_succ]
    omega

/-- A field that is read and written again at its width is as it was. -/
theorem encode_decode (bytes : List UInt8) : encode bytes.length (decode bytes) = bytes := by
  induction bytes with
  | nil => rfl
  | cons byte high ih =>
    have small := byte.toNat_lt
    -- The first byte is the low digit, so that division by 256 removes it.
    have rest : (byte.toNat + 256 * decode high) / 256 = decode high := by omega
    have low : UInt8.ofNat (byte.toNat + 256 * decode high) = byte := by
      apply UInt8.toNat_inj.mp
      rw [UInt8.toNat_ofNat']
      omega
    rw [List.length_cons, decode, encode, rest, low, ih]

end LittleEndian

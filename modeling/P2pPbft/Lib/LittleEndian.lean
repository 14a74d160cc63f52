/-
Numbers as little-endian bytes.

`bytes k n` are the low `k` bytes of `n`, the lowest first, and `value` reads a list
of bytes back.  Reading back gives the number modulo `256 ^ k`, so `k` bytes determine
a number below that, and the two directions of a fixed-width integer's byte conversion
undo each other.
-/
import Mathlib.Data.List.Basic
import Mathlib.Tactic.Ring

namespace LittleEndian

/-- The low `k` bytes of a number. -/
def bytes : Nat → Nat → List UInt8
  | 0, _ => []
  | k + 1, n => UInt8.ofNat n :: bytes k (n / 256)

/-- The number a list of bytes stands for. -/
def value : List UInt8 → Nat
  | [] => 0
  | b :: rest => b.toNat + 256 * value rest

@[simp] theorem length_bytes (k n : Nat) : (bytes k n).length = k := by
  induction k generalizing n with
  | zero => rfl
  | succ k ih => rw [bytes, List.length_cons, ih]

/-- **Reading back gives the number, as far as the bytes reach.** -/
theorem value_bytes (k n : Nat) : value (bytes k n) = n % 256 ^ k := by
  induction k generalizing n with
  | zero => rw [pow_zero, Nat.mod_one]; rfl
  | succ k ih =>
      have hbyte : (UInt8.ofNat n).toNat = n % 256 := by simp
      rw [bytes, value, hbyte, ih, pow_succ, Nat.mul_comm (256 ^ k) 256, Nat.mod_mul]

theorem value_bytes_of_lt {k n : Nat} (h : n < 256 ^ k) : value (bytes k n) = n := by
  rw [value_bytes, Nat.mod_eq_of_lt h]

theorem bytes_inj {k m n : Nat} (hm : m < 256 ^ k) (hn : n < 256 ^ k)
    (h : bytes k m = bytes k n) : m = n := by
  rw [← value_bytes_of_lt hm, h, value_bytes_of_lt hn]

end LittleEndian

import Mathlib.Algebra.Ring.Nat
import SeededGarbling.Bytes

/-!
# Digits determine numbers

Only the digits beyond the width are lost, so numbers that fit a width are told apart by their
digits.
-/

namespace SeededGarbling.Bytes

/-- Only the digits beyond the width are lost. -/
theorem toNat_littleEndian (width n : Nat) : toNat (littleEndian width n) = n % 256 ^ width := by
  induction width generalizing n with
  | zero => simp [littleEndian, toNat, Nat.mod_one]
  | succ width ih =>
    have h := ih (n / 256)
    simp only [toNat] at h ⊢
    have hd : n % 256 ^ (width + 1) = n % 256 + 256 * (n / 256 % 256 ^ width) := by
      rw [Nat.pow_succ', Nat.mod_mul]
    simp only [littleEndian, List.foldr_cons, h, hd, UInt8.toNat_ofNat', Nat.reducePow]

/-- Numbers that fit the width have different digits. -/
theorem littleEndian_inj {width m n : Nat} (hm : m < 256 ^ width) (hn : n < 256 ^ width)
    (h : littleEndian width m = littleEndian width n) : m = n := by
  have := congrArg toNat h
  rwa [toNat_littleEndian, toNat_littleEndian, Nat.mod_eq_of_lt hm, Nat.mod_eq_of_lt hn] at this

end SeededGarbling.Bytes

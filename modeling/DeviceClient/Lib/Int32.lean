import Mathlib.Algebra.Order.Ring.Int
import Mathlib.Data.Int.Notation
import Mathlib.Tactic.SplitIfs

/-!
# Integers of 32 bits

`toInt32`: the value that a signed integer of 32 bits has for an integer of any size, in
two's complement.
-/

namespace Lib

def toInt32 (n : ℤ) : ℤ := n.bmod (2 ^ 32)

theorem toInt32_of_fits {n : ℤ} (hlow : -2 ^ 31 ≤ n) (hhigh : n < 2 ^ 31) : toInt32 n = n :=
  Int.bmod_eq_of_le (by omega) (by omega)

theorem toInt32_of_wraps {n : ℤ} (hlow : 2 ^ 31 ≤ n) (hhigh : n < 2 ^ 32) :
    toInt32 n = n - 2 ^ 32 := by
  unfold toInt32
  rw [Int.bmod_def]
  split_ifs <;> omega

theorem toInt32_lt (n : ℤ) : toInt32 n < 2 ^ 31 := by
  unfold toInt32
  rw [Int.bmod_def]
  split_ifs <;> omega

theorem neg_le_toInt32 (n : ℤ) : -2 ^ 31 ≤ toInt32 n := by
  unfold toInt32
  rw [Int.bmod_def]
  split_ifs <;> omega

theorem toInt32_le {n : ℤ} (h : 0 ≤ n) : toInt32 n ≤ n := by
  unfold toInt32
  rw [Int.bmod_def]
  split_ifs <;> omega

/-- A natural number plus another one is read back as itself. -/
theorem toInt32_add_eq_iff (m d : ℕ) :
    toInt32 ((m : ℤ) + (d : ℤ)) = (m : ℤ) ↔ m < 2 ^ 31 ∧ 2 ^ 32 ∣ d := by
  unfold toInt32
  rw [Int.bmod_def]
  split_ifs <;> omega

theorem toInt32_add_one (n : ℤ) : toInt32 (toInt32 n + 1) = toInt32 (n + 1) :=
  Int.bmod_add_bmod

theorem toInt32_succ_ne (n : ℤ) : toInt32 (n + 1) ≠ n := by
  intro h
  have hmod : toInt32 (n + 1) % 2 ^ 32 = (n + 1) % 2 ^ 32 := Int.bmod_emod
  omega

end Lib

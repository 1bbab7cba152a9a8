import Mathlib.Algebra.Order.Ring.Nat
import Mathlib.Data.List.Basic
import Mathlib.Tactic.Ring

/-!
# Numbers in groups of seven bits

A number as bytes, the low seven bits first; the top bit of a byte says that another
one follows.

* `Lib.varInt`: the bytes, `width` of them at most.
* `Lib.VarInt.foldl_push_varInt`: a reader that adds up group after group gets the number.
* `Lib.varInt_more`: the top bit is set on all the bytes but the last.
* `Lib.length_varInt_le_iff`: how many bytes a number needs.
-/

namespace Lib

/-! ## Bits of a byte -/

theorem toNat_and_low (b : UInt8) : (b &&& 127).toNat = b.toNat % 128 := by
  have hmask : (127 : UInt8).toNat = 2 ^ 7 - 1 := rfl
  rw [UInt8.toNat_and, hmask, Nat.and_two_pow_sub_one_eq_mod]

theorem toNat_or_high {b : UInt8} (h : b.toNat < 128) : (b ||| 128).toNat = b.toNat + 128 := by
  have hall : ∀ i : Fin 128, (UInt8.ofNat i.val ||| 128).toNat = i.val + 128 := by
    decide +kernel
  have hb := hall ⟨b.toNat, h⟩
  rwa [UInt8.ofNat_toNat] at hb

theorem and_high_eq_zero_iff (b : UInt8) : b &&& 128 = 0 ↔ b.toNat < 128 := by
  have hall : ∀ i : Fin 256, UInt8.ofNat i.val &&& 128 = 0 ↔ i.val < 128 := by
    decide +kernel
  have hb := hall ⟨b.toNat, b.toNat_lt⟩
  rwa [UInt8.ofNat_toNat] at hb

/-! ## Writing -/

/-- The groups of a number, `width` of them at most. -/
def varInt : ℕ → ℕ → List UInt8
  | 0, _ => []
  | width + 1, n =>
    if n / 128 = 0 then [UInt8.ofNat (n % 128)]
    else (UInt8.ofNat (n % 128) ||| 128) :: varInt width (n / 128)

theorem toNat_group (n : ℕ) : (UInt8.ofNat (n % 128)).toNat = n % 128 := by
  rw [UInt8.toNat_ofNat']
  omega

theorem varInt_ne_nil (width n : ℕ) : varInt (width + 1) n ≠ [] := by
  unfold varInt
  split <;> simp

theorem length_varInt_le (width n : ℕ) : (varInt width n).length ≤ width := by
  induction width generalizing n with
  | zero => exact Nat.le_refl 0
  | succ width ih =>
    unfold varInt
    split
    · simp
    · exact Nat.succ_le_succ (ih (n / 128))

/-- Fewer than `width` bytes are enough iff the number is less than the power of 128. -/
theorem length_varInt_le_iff {width n k : ℕ} (hk : 0 < k) (hwidth : k < width) :
    (varInt width n).length ≤ k ↔ n < 128 ^ k := by
  induction width generalizing n k with
  | zero => exact absurd hwidth (Nat.not_lt_zero k)
  | succ width ih =>
    unfold varInt
    split
    case isTrue hsmall =>
      refine iff_of_true hk ?_
      have hn : n < 128 ^ 1 := by omega
      exact Nat.lt_of_lt_of_le hn (Nat.pow_le_pow_right (by omega) hk)
    case isFalse hlarge =>
      rw [List.length_cons]
      obtain ⟨j, rfl⟩ := Nat.exists_eq_succ_of_ne_zero (Nat.pos_iff_ne_zero.1 hk)
      rcases Nat.eq_zero_or_pos j with rfl | hj
      · obtain ⟨w, rfl⟩ : ∃ w, width = w + 1 := ⟨width - 1, by omega⟩
        have hpos := List.length_pos_of_ne_nil (varInt_ne_nil w (n / 128))
        refine iff_of_false (by omega) ?_
        rw [pow_one]
        omega
      · rw [Nat.succ_le_succ_iff, ih hj (by omega), pow_succ']
        omega

/-- The top bit is set on all the bytes but the last. -/
theorem varInt_more {width n : ℕ} (h : n < 128 ^ width) (hpos : 0 < width) :
    ∃ more last, varInt width n = more ++ [last] ∧ (∀ b ∈ more, b &&& 128 ≠ 0) ∧
      last &&& 128 = 0 := by
  induction width generalizing n with
  | zero => exact absurd hpos (Nat.lt_irrefl 0)
  | succ width ih =>
    rw [pow_succ'] at h
    unfold varInt
    split
    case isTrue hsmall =>
      refine ⟨[], UInt8.ofNat (n % 128), rfl, by simp, ?_⟩
      rw [and_high_eq_zero_iff, toNat_group]
      exact Nat.mod_lt n (by omega)
    case isFalse hlarge =>
      have hwidth : 0 < width := by
        rcases Nat.eq_zero_or_pos width with rfl | hwidth
        · rw [pow_zero] at h
          omega
        · exact hwidth
      obtain ⟨more, last, heq, hmore, hlast⟩ := ih (n := n / 128) (by omega) hwidth
      refine ⟨(UInt8.ofNat (n % 128) ||| 128) :: more, last, by rw [heq]; rfl, ?_, hlast⟩
      intro b hb
      rcases List.mem_cons.1 hb with rfl | hb
      · rw [Ne, and_high_eq_zero_iff, toNat_or_high]
        · omega
        · rw [toNat_group]
          exact Nat.mod_lt n (by omega)
      · exact hmore b hb

/-! ## Reading -/

/-- What a reader has added up, and what the next group counts. -/
structure VarInt where
  value : ℕ
  mult : ℕ
deriving DecidableEq, Repr

namespace VarInt

def push (v : VarInt) (b : UInt8) : VarInt :=
  ⟨v.value + (b &&& 127).toNat * v.mult, v.mult * 128⟩

theorem mult_foldl_push (v : VarInt) (l : List UInt8) :
    (l.foldl push v).mult = v.mult * 128 ^ l.length := by
  induction l generalizing v with
  | nil => rw [List.foldl_nil, List.length_nil, pow_zero, Nat.mul_one]
  | cons b l ih =>
    rw [List.foldl_cons, ih, List.length_cons, pow_succ', ← Nat.mul_assoc]
    rfl

/-- Groups that are read count less than the next one. -/
theorem value_foldl_push_lt {v : VarInt} (h : v.value < v.mult) (l : List UInt8) :
    (l.foldl push v).value < (l.foldl push v).mult := by
  induction l generalizing v with
  | nil => exact h
  | cons b l ih =>
    apply ih
    have hb : (b &&& 127).toNat ≤ 127 := by
      rw [toNat_and_low]
      omega
    have hmul := Nat.mul_le_mul_right v.mult hb
    unfold push
    dsimp only
    omega

/-- Reading adds up what was written. -/
theorem value_foldl_push_varInt {width n : ℕ} (h : n < 128 ^ width) (v : VarInt) :
    ((varInt width n).foldl push v).value = v.value + n * v.mult := by
  induction width generalizing n v with
  | zero =>
    rw [pow_zero, Nat.lt_one_iff] at h
    subst h
    rw [Nat.zero_mul]
    rfl
  | succ width ih =>
    rw [pow_succ'] at h
    have hdiv := Nat.mod_add_div n 128
    have hmod : n % 128 < 128 := Nat.mod_lt n (by omega)
    unfold varInt
    split
    case isTrue hsmall =>
      rw [List.foldl_cons, List.foldl_nil]
      unfold push
      dsimp only
      rw [toNat_and_low, toNat_group, Nat.mod_mod]
      congr 2
      omega
    case isFalse hlarge =>
      rw [List.foldl_cons, ih (by omega)]
      unfold push
      dsimp only
      rw [toNat_and_low, toNat_or_high (by rw [toNat_group]; exact hmod), toNat_group,
        Nat.add_mod_right, Nat.mod_mod]
      calc v.value + n % 128 * v.mult + n / 128 * (v.mult * 128)
          = v.value + (n % 128 + 128 * (n / 128)) * v.mult := by ring
        _ = v.value + n * v.mult := by rw [hdiv]

end VarInt

end Lib

/-
  Foundation/Double.lean --- numbers of 53 significant bits.

  A `double` keeps the 53 leading bits of a number, and what is left over is rounded to
  the nearest, in the middle to the even one.  Here a `double` is the rational that it
  stands for.  The exponents of the format are not bounded: it is for numbers that are
  far from its limits.

  WHAT THE FILE PROVIDES.  The rounding, as a computation; an integer of no more than 53
  bits is not rounded, and no number is changed by more than half of its last bit.
-/
import Mathlib.Algebra.Order.Round
import Mathlib.Data.Int.Log
import Mathlib.Data.Rat.Floor

set_option autoImplicit false

namespace IbmmqExporter.Foundation

/-- The nearest integer; in the middle between two the even one. -/
def roundEven (q : ℚ) : Int :=
  if q - ⌊q⌋ < 1 / 2 then ⌊q⌋
  else if 1 / 2 < q - ⌊q⌋ then ⌊q⌋ + 1
  else if ⌊q⌋ % 2 = 0 then ⌊q⌋
  else ⌊q⌋ + 1

/-- What the last of 53 significant bits stands for. -/
def lastBit (q : ℚ) : ℚ := 2 ^ (Int.log 2 |q| - 52)

/-- The nearest number of 53 significant bits. -/
def toDouble (q : ℚ) : ℚ := roundEven (q / lastBit q) * lastBit q

example : toDouble (2 ^ 53 + 1) = 2 ^ 53 ∧ toDouble (2 ^ 53 + 3) = 2 ^ 53 + 4 := by
  decide +kernel

/-! ## Rounding to integers -/

theorem roundEven_intCast (n : Int) : roundEven n = n := by
  unfold roundEven
  rw [Int.floor_intCast, sub_self, if_pos (by norm_num)]

/-- Rounding is by one half at most. -/
theorem abs_roundEven_sub_le (q : ℚ) : |(roundEven q : ℚ) - q| ≤ 1 / 2 := by
  have hlow := Int.floor_le q
  have hhigh := Int.lt_floor_add_one q
  unfold roundEven
  rw [abs_le]
  split
  · constructor <;> linarith
  · split
    · push_cast
      constructor <;> linarith
    · split
      · constructor <;> linarith
      · push_cast
        constructor <;> linarith

/-! ## Rounding to doubles -/

theorem lastBit_pos (q : ℚ) : 0 < lastBit q := zpow_pos (by norm_num) _

/-- A number is changed by half of its last bit at most. -/
theorem abs_toDouble_sub_le (q : ℚ) : |toDouble q - q| ≤ lastBit q / 2 := by
  have hpos := lastBit_pos q
  have hround := abs_roundEven_sub_le (q / lastBit q)
  calc |toDouble q - q|
      = |(roundEven (q / lastBit q) - q / lastBit q) * lastBit q| := by
        rw [sub_mul, div_mul_cancel₀ _ hpos.ne']
        rfl
    _ = |(roundEven (q / lastBit q) : ℚ) - q / lastBit q| * lastBit q := by
        rw [abs_mul, abs_of_pos hpos]
    _ ≤ 1 / 2 * lastBit q := mul_le_mul_of_nonneg_right hround hpos.le
    _ = lastBit q / 2 := by ring

/-- A multiple of the last bit is not rounded. -/
theorem toDouble_of_multiple {q : ℚ} {n : Int} (h : q = n * lastBit q) : toDouble q = q := by
  have hpos := lastBit_pos q
  have hquot : q / lastBit q = n := by
    rw [div_eq_iff hpos.ne']
    exact h
  unfold toDouble
  rw [hquot, roundEven_intCast]
  exact h.symm

/-- Nor is an integer of 53 bits. -/
theorem toDouble_intCast {n : Int} (h : |n| ≤ 2 ^ 53) : toDouble n = n := by
  have hlog : Int.log 2 |(n : ℚ)| ≤ 53 := by
    have hle : |(n : ℚ)| ≤ (2 : ℕ) ^ (53 : Int) := by exact_mod_cast h
    rcases eq_or_ne n 0 with rfl | hn
    · simp
    · have hpos : 0 < |(n : ℚ)| := abs_pos.mpr (Int.cast_ne_zero.mpr hn)
      calc Int.log 2 |(n : ℚ)| ≤ Int.log 2 (((2 : ℕ) : ℚ) ^ (53 : Int)) :=
            Int.log_mono_right hpos hle
        _ = 53 := Int.log_zpow (by norm_num) 53
  rcases hlog.lt_or_eq with hlt | heq
  · -- the last bit is a whole fraction of one
    obtain ⟨k, hk⟩ : ∃ k : ℕ, Int.log 2 |(n : ℚ)| - 52 = -k :=
      ⟨(52 - Int.log 2 |(n : ℚ)|).toNat, by omega⟩
    refine toDouble_of_multiple (n := n * 2 ^ k) ?_
    unfold lastBit
    rw [hk, zpow_neg, zpow_natCast]
    push_cast
    rw [mul_assoc, mul_inv_cancel₀ (by positivity), mul_one]
  · -- there is only one number of this length
    have hlow : (2 : ℚ) ^ (53 : Int) ≤ |(n : ℚ)| := by
      have hn : |(n : ℚ)| ≠ 0 := fun hzero => by
        rw [hzero] at heq
        simp at heq
      have hself := Int.zpow_log_le_self (b := 2) (by norm_num)
        (lt_of_le_of_ne (abs_nonneg (n : ℚ)) hn.symm)
      rwa [heq] at hself
    have habs : |n| = 2 ^ 53 := le_antisymm h (by exact_mod_cast hlow)
    have hbit : lastBit n = 2 := by
      unfold lastBit
      rw [heq]
      norm_num
    rcases abs_choice n with hsign | hsign
    · refine toDouble_of_multiple (n := 2 ^ 52) ?_
      rw [hbit, ← hsign, habs]
      norm_num
    · refine toDouble_of_multiple (n := -2 ^ 52) ?_
      rw [hbit, ← neg_neg n, ← hsign, habs]
      norm_num

end IbmmqExporter.Foundation

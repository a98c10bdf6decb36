import Mathlib.Algebra.Order.Field.Basic
import Mathlib.Data.Int.Log
import Mathlib.Algebra.Order.Round
import Mathlib.Data.Rat.Floor
import Mathlib.Tactic.GCongr
import Mathlib.Tactic.Linarith
import Mathlib.Tactic.Ring

/-!
# Rounding with a bounded relative error

What follows for products and comparisons from a bound on the relative error of every rounding,
and a rounding to nearest that has such a bound.

## Main definitions

- `RelError` — every value is rounded with a relative error of at most `u`
- `roundNearest` — to the nearest number of `p` binary digits
-/

namespace Rounding

section RelError

variable {K : Type*} [Field K] [LinearOrder K] [IsStrictOrderedRing K]

/-- Every value is rounded with a relative error of at most `u`. -/
def RelError (u : K) (rnd : K → K) : Prop := ∀ x, |rnd x - x| ≤ u * |x|

variable {u x y : K} {rnd : K → K}

theorem RelError.le (h : RelError u rnd) (hx : 0 ≤ x) : rnd x ≤ (1 + u) * x := by
  have hbound := (abs_le.mp (h x)).2
  rw [abs_of_nonneg hx] at hbound
  linarith

theorem RelError.ge (h : RelError u rnd) (hx : 0 ≤ x) : (1 - u) * x ≤ rnd x := by
  have hbound := (abs_le.mp (h x)).1
  rw [abs_of_nonneg hx] at hbound
  linarith

theorem RelError.nonneg (h : RelError u rnd) (hu : u ≤ 1) (hx : 0 ≤ x) : 0 ≤ rnd x :=
  (mul_nonneg (sub_nonneg.mpr hu) hx).trans (h.ge hx)

/-- A product of rounded factors, itself rounded, from above. -/
theorem RelError.mul_le (h : RelError u rnd) (hu : 0 ≤ u) (hu1 : u ≤ 1) (hx : 0 ≤ x)
    (hy : 0 ≤ y) : rnd (rnd x * rnd y) ≤ (1 + u) ^ 3 * (x * y) := by
  have hx' := h.nonneg hu1 hx
  have hy' := h.nonneg hu1 hy
  calc rnd (rnd x * rnd y) ≤ (1 + u) * (rnd x * rnd y) := h.le (mul_nonneg hx' hy')
    _ ≤ (1 + u) * ((1 + u) * x * ((1 + u) * y)) := by
        have hle := mul_le_mul (h.le hx) (h.le hy) hy' (by positivity)
        exact mul_le_mul_of_nonneg_left hle (by positivity)
    _ = (1 + u) ^ 3 * (x * y) := by ring

/-- A product of rounded factors, itself rounded, from below. -/
theorem RelError.le_mul (h : RelError u rnd) (hu1 : u ≤ 1) (hx : 0 ≤ x) (hy : 0 ≤ y) :
    (1 - u) ^ 3 * (x * y) ≤ rnd (rnd x * rnd y) := by
  have hx' := h.nonneg hu1 hx
  have hy' := h.nonneg hu1 hy
  have hpos : 0 ≤ 1 - u := sub_nonneg.mpr hu1
  calc (1 - u) ^ 3 * (x * y) = (1 - u) * ((1 - u) * x * ((1 - u) * y)) := by ring
    _ ≤ (1 - u) * (rnd x * rnd y) := by
        have hle := mul_le_mul (h.ge hx) (h.ge hy) (mul_nonneg hpos hy) hx'
        exact mul_le_mul_of_nonneg_left hle hpos
    _ ≤ rnd (rnd x * rnd y) := h.ge (mul_nonneg hx' hy')

end RelError

section Nearest

/-- The nearest number of `p` binary digits, with no bound on the exponent; a tie is rounded up. -/
def roundNearest (p : ℕ) (x : ℚ) : ℚ :=
  let ulp : ℚ := 2 ^ (Int.log 2 |x| + 1 - p)
  round (x / ulp) * ulp

theorem relError_roundNearest (p : ℕ) : RelError (1 / 2 ^ p) (roundNearest p) := by
  intro x
  by_cases hx : x = 0
  · simp [roundNearest, hx]
  have hpos : 0 < |x| := abs_pos.mpr hx
  have hlog : (2 : ℚ) ^ Int.log 2 |x| ≤ |x| := by
    exact_mod_cast Int.zpow_log_le_self (by norm_num) hpos
  simp only [roundNearest]
  set ulp : ℚ := 2 ^ (Int.log 2 |x| + 1 - p) with hulp
  have hulp_pos : 0 < ulp := zpow_pos two_pos _
  have hhalf : ulp / 2 ≤ 1 / 2 ^ p * |x| := by
    have hsplit : ulp / 2 = 1 / 2 ^ p * 2 ^ Int.log 2 |x| := by
      rw [hulp, zpow_sub₀ two_ne_zero, zpow_add_one₀ two_ne_zero, zpow_natCast]
      ring
    rw [hsplit]
    gcongr
  calc |(round (x / ulp) : ℚ) * ulp - x|
      = |(round (x / ulp) : ℚ) - x / ulp| * ulp := by
        rw [← abs_of_pos hulp_pos, ← abs_mul, abs_of_pos hulp_pos, sub_mul,
          div_mul_cancel₀ x hulp_pos.ne']
    _ ≤ 1 / 2 * ulp := by
        gcongr
        rw [abs_sub_comm]
        exact abs_sub_round _
    _ ≤ 1 / 2 ^ p * |x| := by linarith

end Nearest

end Rounding

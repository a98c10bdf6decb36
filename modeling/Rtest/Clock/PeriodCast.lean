import Rtest.Foundations.Rounding

/-!
# The period of a timer, in nanoseconds

`create_timer` and `create_wall_timer` take a duration of any unit and cast it to nanoseconds. The
cast checks the range in double precision, where near the limit the check is too coarse to tell a
period that fits from one that does not, and the sign of the product afterwards.

A duration is a count `c` of units of `k` nanoseconds. `rnd` rounds an exact value to a double.
-/

namespace Rtest

open Rounding

/-- What `safe_cast_to_period_in_ns` throws. -/
inductive PeriodError where
  | negative
  | tooLarge
  | overflow
  deriving DecidableEq, Repr

/-- The exception's type and `what()`. -/
def PeriodError.what : PeriodError → String × String
  | negative => ("std::invalid_argument", "timer period cannot be negative")
  | tooLarge => ("std::invalid_argument",
      "timer period must be less than std::chrono::nanoseconds::max()")
  | overflow => ("std::runtime_error",
      "Casting timer period to nanoseconds resulted in integer overflow.")

/-- `std::chrono::nanoseconds::max()`. -/
def nanosecondsMax : ℤ := 2 ^ 63 - 1

/-- A product of 64-bit integers, wrapped around. -/
def wrapInt64 (x : ℤ) : ℤ := x.bmod (2 ^ 64)

/-- The duration in nanoseconds, as a double: a unit of one nanosecond takes no product. -/
def nanosecondsAsDouble (rnd : ℚ → ℚ) (k c : ℤ) : ℚ :=
  if k = 1 then rnd c else rnd (rnd c * rnd k)

/-- `safe_cast_to_period_in_ns`. -/
def safeCastToPeriodInNs (rnd : ℚ → ℚ) (k c : ℤ) : Except PeriodError ℤ :=
  if c < 0 then .error .negative
  else
    let maximumSafeCastNs := nanosecondsMax - k
    let nsMaxAsDouble := rnd maximumSafeCastNs
    if nsMaxAsDouble < nanosecondsAsDouble rnd k c then .error .tooLarge
    else
      let periodNs := wrapInt64 (c * k)
      if periodNs < 0 then .error .overflow else .ok periodNs

/-- The unit roundoff of a double. -/
def doubleError : ℚ := 1 / 2 ^ 53

variable {rnd : ℚ → ℚ} {k c p : ℤ}

/-- The sign tells what a wrapped product was, if it was no more than twice out of range. -/
theorem wrapInt64_of_lt {x : ℤ} (h0 : 0 ≤ x) (hx : x < 2 ^ 64) :
    wrapInt64 x = if x ≤ nanosecondsMax then x else x - 2 ^ 64 := by
  have hmod : x % (2 ^ 64 : ℕ) = x := Int.emod_eq_of_lt h0 hx
  simp only [wrapInt64, Int.bmod, hmod, nanosecondsMax]
  split_ifs <;> omega

/-- The double is the product, up to three roundings. -/
theorem nanosecondsAsDouble_bounds (hrnd : RelError doubleError rnd) (hk : 1 ≤ k) (hc : 0 ≤ c) :
    (1 - doubleError) ^ 3 * (c * k : ℤ) ≤ nanosecondsAsDouble rnd k c ∧
      nanosecondsAsDouble rnd k c ≤ (1 + doubleError) ^ 3 * (c * k : ℤ) := by
  have hc' : (0 : ℚ) ≤ c := by exact_mod_cast hc
  have hk' : (0 : ℚ) ≤ k := by exact_mod_cast (by omega : 0 ≤ k)
  rw [nanosecondsAsDouble]
  split
  · next hone =>
    have hlo := hrnd.ge hc'
    have hhi := hrnd.le hc'
    rw [hone, mul_one]
    simp only [doubleError] at hlo hhi ⊢
    constructor
    · refine le_trans (mul_le_mul_of_nonneg_right ?_ hc') hlo
      norm_num
    · refine hhi.trans (mul_le_mul_of_nonneg_right ?_ hc')
      norm_num
  · push_cast
    exact ⟨hrnd.le_mul (by norm_num [doubleError]) hc' hk',
      hrnd.mul_le (by norm_num [doubleError]) (by norm_num [doubleError]) hc' hk'⟩

/-- The limit of the range check, as an exact value. -/
theorem nanosecondsMax_sub_le (hk : 1 ≤ k) : ((nanosecondsMax - k : ℤ) : ℚ) ≤ 2 ^ 63 := by
  have hint : nanosecondsMax - k ≤ 2 ^ 63 := by
    simp only [nanosecondsMax]
    omega
  exact_mod_cast hint

/-- The range check lets nothing pass that is twice out of range. -/
theorem lt_of_not_tooLarge (hrnd : RelError doubleError rnd) (hk : 1 ≤ k)
    (hk' : k ≤ nanosecondsMax) (hc : 0 ≤ c)
    (hpass : ¬ rnd (nanosecondsMax - k : ℤ) < nanosecondsAsDouble rnd k c) :
    c * k < 2 ^ 64 := by
  by_contra hge
  have hge : (2 ^ 64 : ℚ) ≤ (c * k : ℤ) := by exact_mod_cast not_lt.mp hge
  have hlo := (nanosecondsAsDouble_bounds hrnd hk hc).1
  have hmax : (0 : ℚ) ≤ (nanosecondsMax - k : ℤ) := by exact_mod_cast sub_nonneg.mpr hk'
  have hhi := hrnd.le hmax
  have hle := nanosecondsMax_sub_le hk
  rw [not_lt] at hpass
  -- three roundings of the product and one of the limit do not make up for a factor of two
  generalize ((c * k : ℤ) : ℚ) = x at *
  generalize ((nanosecondsMax - k : ℤ) : ℚ) = y at *
  norm_num [doubleError] at hlo hhi hle hge
  linarith

/-- The range check lets everything pass that stays clear of the limit. -/
theorem not_tooLarge (hrnd : RelError doubleError rnd) (hk : 1 ≤ k) (hc : 0 ≤ c)
    (hclear : c * k ≤ nanosecondsMax - k - 8192) :
    ¬ rnd (nanosecondsMax - k : ℤ) < nanosecondsAsDouble rnd k c := by
  have hprod : 0 ≤ c * k := mul_nonneg hc (by omega)
  have hhi := (nanosecondsAsDouble_bounds hrnd hk hc).2
  have hmax : (0 : ℚ) ≤ (nanosecondsMax - k : ℤ) := by
    have hint : 0 ≤ nanosecondsMax - k := by omega
    exact_mod_cast hint
  have hlo := hrnd.ge hmax
  have hle := nanosecondsMax_sub_le hk
  have hclear : ((c * k : ℤ) : ℚ) ≤ (nanosecondsMax - k : ℤ) - 8192 := by exact_mod_cast hclear
  -- the four roundings amount to little more than 4096
  generalize ((c * k : ℤ) : ℚ) = x at *
  generalize ((nanosecondsMax - k : ℤ) : ℚ) = y at *
  norm_num [doubleError] at hlo hhi hle
  linarith

/-- What a successful cast returns. -/
theorem safeCastToPeriodInNs_ok (hrnd : RelError doubleError rnd) (hk : 1 ≤ k)
    (hk' : k ≤ nanosecondsMax) (h : safeCastToPeriodInNs rnd k c = .ok p) :
    p = c * k ∧ 0 ≤ c * k ∧ c * k ≤ nanosecondsMax := by
  simp only [safeCastToPeriodInNs] at h
  split_ifs at h with hneg hlarge hwrap
  have hc : 0 ≤ c := not_lt.mp hneg
  have hprod : 0 ≤ c * k := mul_nonneg hc (by omega)
  have hlt := lt_of_not_tooLarge hrnd hk hk' hc hlarge
  obtain rfl := Except.ok.inj h
  rw [wrapInt64_of_lt hprod hlt] at hwrap ⊢
  split_ifs at hwrap ⊢ with hfits
  · exact ⟨rfl, hprod, hfits⟩
  · omega

/-- A period that stays clear of the limit is returned. -/
theorem safeCastToPeriodInNs_of_le (hrnd : RelError doubleError rnd) (hk : 1 ≤ k)
    (h0 : 0 ≤ c * k) (hclear : c * k ≤ nanosecondsMax - k - 8192) :
    safeCastToPeriodInNs rnd k c = .ok (c * k) := by
  have hc : 0 ≤ c := nonneg_of_mul_nonneg_left h0 (by omega)
  have hmax : c * k ≤ nanosecondsMax := by omega
  have hwrap : wrapInt64 (c * k) = c * k := by
    rw [wrapInt64_of_lt h0 (by simp only [nanosecondsMax] at hmax; omega), if_pos hmax]
  simp only [safeCastToPeriodInNs, if_neg (not_lt.mpr hc), if_neg (not_tooLarge hrnd hk hc hclear),
    hwrap, if_neg (not_lt.mpr h0)]

/-- **The cast never yields a wrong period.** For every unit of `k` nanoseconds and every count it
throws, or returns the exact product and that in range; it throws for a negative count and for a
product out of range, and returns for one that stays clear of the limit. -/
theorem period_exact (hrnd : RelError doubleError rnd) (hk : 1 ≤ k) (hk' : k ≤ nanosecondsMax) :
    (∀ p, safeCastToPeriodInNs rnd k c = .ok p →
      p = c * k ∧ 0 ≤ c * k ∧ c * k ≤ nanosecondsMax) ∧
    (c < 0 ∨ nanosecondsMax < c * k → ∃ e, safeCastToPeriodInNs rnd k c = .error e) ∧
    (0 ≤ c * k → c * k ≤ nanosecondsMax - k - 8192 →
      safeCastToPeriodInNs rnd k c = .ok (c * k)) := by
  refine ⟨fun p h => safeCastToPeriodInNs_ok hrnd hk hk' h, fun hout => ?_,
    safeCastToPeriodInNs_of_le hrnd hk⟩
  cases h : safeCastToPeriodInNs rnd k c with
  | error e => exact ⟨e, rfl⟩
  | ok p =>
    obtain ⟨-, hprod, hmax⟩ := safeCastToPeriodInNs_ok hrnd hk hk' h
    have hc : 0 ≤ c := nonneg_of_mul_nonneg_left hprod (by omega)
    omega

/-- Half an hour in seconds, rounded to 53 binary digits. -/
theorem period_exact_seconds :
    (∀ p, safeCastToPeriodInNs (roundNearest 53) 1000000000 1800 = .ok p →
      p = 1800 * 1000000000 ∧ (0 : ℤ) ≤ 1800 * 1000000000 ∧
        1800 * 1000000000 ≤ nanosecondsMax) ∧
    ((1800 : ℤ) < 0 ∨ nanosecondsMax < 1800 * 1000000000 →
      ∃ e, safeCastToPeriodInNs (roundNearest 53) 1000000000 1800 = .error e) ∧
    ((0 : ℤ) ≤ 1800 * 1000000000 → 1800 * 1000000000 ≤ nanosecondsMax - 1000000000 - 8192 →
      safeCastToPeriodInNs (roundNearest 53) 1000000000 1800 = .ok (1800 * 1000000000)) :=
  period_exact (relError_roundNearest 53) (by decide) (by decide)

end Rtest

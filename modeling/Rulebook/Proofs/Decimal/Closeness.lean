import Rulebook.Proofs.Decimal.Represented

/-!
# How far rounding moves a value

A value below one is moved by at most half a unit of the 28th place. Integers are never crossed, so
what is at least one stays at least one. No decimal but zero lies within a unit of the 28th place
around zero, and no value of that size is rounded to zero.
-/
namespace Rulebook.Decimal

/-- One unit of the 28th place. -/
def unit : ℚ := 1 / 10 ^ 28

theorem unit_pos : 0 < unit := by
  norm_num [unit]

namespace Represents

variable {tie : Tie} {precise : ℚ} {number : Decimal}

theorem abs_sub_eq (number : Decimal) (precise : ℚ) :
    |precise - number.toRat| =
      |precise * 10 ^ number.scale - number.mantissa| / 10 ^ number.scale := by
  have step : (0 : ℚ) < 10 ^ number.scale := by positivity
  rw [eq_div_iff step.ne', ← number.toRat_mul_pow, ← sub_mul, abs_mul, abs_of_pos step]

/-- Rounding moves a value by half a unit of its last place at most. -/
theorem abs_sub_le_half (represents : Represents tie precise number) :
    |precise - number.toRat| ≤ 1 / 2 / 10 ^ number.scale := by
  rw [abs_sub_eq]
  exact div_le_div_of_nonneg_right represents.nearest.near (by positivity)

/-- Below one all 28 places are used. -/
theorem abs_sub_le_of_le_one (represents : Represents tie precise number) (small : |precise| ≤ 1) :
    |precise - number.toRat| ≤ unit / 2 := by
  have half := represents.abs_sub_le_half
  have full (filled : number.scale = 28) : |precise - number.toRat| ≤ unit / 2 := by
    rw [filled] at half
    exact half.trans (by norm_num [unit])
  rcases represents.finest with same | filled | unfit
  · rw [same, sub_self, abs_zero]
    exact (half_pos unit_pos).le
  · exact full filled
  · refine full (le_antisymm number.scale_le ?_)
    -- One place more would still fit a value below one.
    by_contra! fewer
    have grid : (10 : ℚ) ^ (number.scale + 1) ≤ 10 ^ 28 :=
      pow_le_pow_right₀ (by norm_num) fewer
    have bound := mul_le_mul small grid (by positivity) zero_le_one
    linarith

/-- No integer above a value is crossed. -/
theorem toRat_le (represents : Represents tie precise number) (bound : ℤ)
    (below : precise ≤ bound) : number.toRat ≤ bound := by
  have step : (0 : ℚ) < 10 ^ number.scale := by positivity
  have scaled : precise * 10 ^ number.scale ≤ (bound * 10 ^ number.scale : ℤ) := by
    push_cast
    exact mul_le_mul_of_nonneg_right below step.le
  have whole : (number.mantissa : ℚ) ≤ bound * 10 ^ number.scale := by
    exact_mod_cast represents.nearest.whole_le _ scaled
  rwa [toRat_eq_div, div_le_iff₀ step]

/-- No integer below a value is crossed. -/
theorem le_toRat (represents : Represents tie precise number) (bound : ℤ)
    (above : bound ≤ precise) : bound ≤ number.toRat := by
  -- The other side in the mirror.
  have mirrored := represents.neg.toRat_le (-bound) (by push_cast; linarith)
  rw [toRat_negate] at mirrored
  push_cast at mirrored
  linarith

/-- What is at least one stays so. -/
theorem one_le_abs_toRat (represents : Represents tie precise number) (large : 1 ≤ |precise|) :
    1 ≤ |number.toRat| := by
  rcases le_abs.mp large with above | below
  · have ge := represents.le_toRat 1 (by exact_mod_cast above)
    exact le_abs.mpr (.inl (by exact_mod_cast ge))
  · have le := represents.toRat_le (-1) (by push_cast; linarith)
    refine le_abs.mpr (.inr ?_)
    push_cast at le
    linarith

theorem toRat_eq_zero (represents : Represents tie 0 number) : number.toRat = 0 := by
  have le := represents.toRat_le 0 (by simp)
  have ge := represents.le_toRat 0 (by simp)
  push_cast at le ge
  exact le_antisymm le ge

/-- A unit of the 28th place is not rounded to zero. -/
theorem toRat_ne_zero (represents : Represents tie precise number) (large : unit ≤ |precise|) :
    number.toRat ≠ 0 := by
  intro zero
  rcases le_total |precise| 1 with small | more
  -- Half a unit does not reach zero from a whole one.
  · have near := represents.abs_sub_le_of_le_one small
    rw [zero, sub_zero] at near
    linarith [unit_pos]
  · have more := represents.one_le_abs_toRat more
    rw [zero, abs_zero] at more
    linarith

end Represents

theorem toRat_one : one.toRat = 1 := by
  decide +kernel

theorem toRat_zero : zero.toRat = 0 := by
  decide +kernel

/-- Decimals are multiples of the unit of the 28th place, so none but zero is smaller. -/
theorem unit_le_abs_toRat {number : Decimal} (nonzero : number.toRat ≠ 0) :
    unit ≤ |number.toRat| := by
  have mantissa : (1 : ℚ) ≤ |(number.mantissa : ℚ)| := by
    exact_mod_cast Int.one_le_abs (mt number.mantissa_eq_zero_iff.mp nonzero)
  have places : (10 : ℚ) ^ number.scale ≤ 10 ^ 28 := pow_le_pow_right₀ (by norm_num) number.scale_le
  rw [toRat_eq_div, abs_div, abs_pow, Nat.abs_ofNat, unit]
  exact div_le_div₀ (by positivity) mantissa (by positivity) places

/-- The largest decimal. -/
theorem abs_toRat_le_max (number : Decimal) : |number.toRat| ≤ 2 ^ 96 - 1 := by
  have mantissa : |(number.mantissa : ℚ)| ≤ 2 ^ 96 - 1 := by
    have bound := number.abs_mantissa_lt
    have bound : |number.mantissa| ≤ 2 ^ 96 - 1 := by omega
    exact_mod_cast bound
  have step : (1 : ℚ) ≤ 10 ^ number.scale := one_le_pow₀ (by norm_num)
  rw [toRat_eq_div, abs_div, abs_pow, Nat.abs_ofNat]
  exact (div_le_self (abs_nonneg _) step).trans mantissa

namespace IsTaken

variable {precise : ℚ} {taken : Option Decimal}

/-- A value in the range of decimals is found. -/
theorem exists_represents (isTaken : IsTaken precise taken) (fits : |precise| + 1 / 2 < 2 ^ 96) :
    ∃ number, taken = some number ∧ Represents .even precise number := by
  cases found : taken with
  | none => exact absurd (isTaken.missing.mp found) (not_le.mpr fits)
  | some number => exact ⟨number, rfl, isTaken.represents found⟩

end IsTaken

end Rulebook.Decimal

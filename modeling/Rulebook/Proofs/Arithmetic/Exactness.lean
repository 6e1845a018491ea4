import Rulebook.Proofs.Arithmetic.NormalForm
import Rulebook.Proofs.Decimal.Closeness

/-!
# Values that are not rounded

A decimal is a multiple of a power of ten by a coefficient that fits, and every such multiple with
at most 28 places is a decimal. What is a decimal already is taken into the decimals as it is, at
whatever places, and differences of decimals are as coarse as decimals themselves.
-/
namespace Rulebook

/-- The value is a multiple of a power of ten by a coefficient below a bound. -/
def FitsAt (bound exponent : ℤ) (value : ℚ) : Prop :=
  ∃ coefficient : ℤ, |coefficient| < bound ∧ value = coefficient * 10 ^ exponent

theorem abs_mul_zpow (coefficient : ℚ) (exponent : ℤ) :
    |coefficient * 10 ^ exponent| = |coefficient| * 10 ^ exponent := by
  rw [abs_mul, abs_of_pos (zpow_pos (by norm_num : (0 : ℚ) < 10) exponent)]

theorem Decimal.toRat_eq_mantissa_mul (number : Decimal) :
    number.toRat = number.mantissa * 10 ^ (-number.scale : ℤ) := by
  rw [toRat_eq_div, zpow_neg, zpow_natCast, div_eq_mul_inv]

section FitsAt

variable {bound exponent : ℤ} {value : ℚ}

theorem hasDigits_iff {count : ℕ} :
    HasDigits count value ↔ ∃ exponent, FitsAt (10 ^ count) exponent value :=
  exists_comm

/-- What fits is smaller than its bound at the same place. -/
theorem FitsAt.abs_lt (fits : FitsAt bound exponent value) : |value| < bound * 10 ^ exponent := by
  obtain ⟨coefficient, small, rfl⟩ := fits
  rw [abs_mul_zpow]
  exact mul_lt_mul_of_pos_right (by exact_mod_cast small) (zpow_pos (by norm_num) _)

/-- A multiple that is small enough fits. -/
theorem fitsAt_of_abs_lt {whole : ℤ}
    (small : |(whole : ℚ) * 10 ^ exponent| < bound * 10 ^ exponent) :
    FitsAt bound exponent (whole * 10 ^ exponent) := by
  have step : (0 : ℚ) < 10 ^ exponent := zpow_pos (by norm_num) _
  rw [abs_mul_zpow] at small
  exact ⟨whole, by exact_mod_cast lt_of_mul_lt_mul_right small step.le, rfl⟩

/-- What fits 96 bits at one of 28 places is a decimal. -/
theorem FitsAt.exists_decimal (fits : FitsAt (2 ^ 96) exponent value) (fine : -28 ≤ exponent)
    (coarse : exponent ≤ 0) : ∃ number : Decimal, number.toRat = value := by
  obtain ⟨coefficient, small, rfl⟩ := fits
  obtain ⟨places, rfl⟩ := Int.exists_eq_neg_ofNat coarse
  have room : coefficient.natAbs < 2 ^ 96 := by
    rw [Int.abs_eq_natAbs] at small
    exact_mod_cast small
  exact ⟨.ofSigned false coefficient places room (by omega), Decimal.toRat_eq_mantissa_mul _⟩

end FitsAt

namespace Decimal

theorem fitsAt (number : Decimal) : FitsAt (2 ^ 96) (-number.scale) number.toRat :=
  ⟨number.mantissa, number.abs_mantissa_lt, number.toRat_eq_mantissa_mul⟩

/-- Where a decimal has no more places than the number found for it, it is a multiple of the last
of these, so that nothing is nearer. -/
theorem Represents.toRat_eq_of_scale_le {tie : Tie} {number other : Decimal}
    (represents : Represents tie other.toRat number) (places : other.scale ≤ number.scale) :
    number.toRat = other.toRat := by
  have step : (0 : ℚ) < 10 ^ number.scale := by positivity
  have whole : other.toRat * 10 ^ number.scale =
      (other.mantissa * 10 ^ (number.scale - other.scale) : ℤ) := by
    rw [← Nat.add_sub_cancel' places, pow_add, ← mul_assoc, toRat_mul_pow, Nat.add_sub_cancel_left]
    push_cast
    rfl
  -- The value itself is whole at these places, so the mantissa is no farther from it.
  have nearer := represents.nearest.abs_sub_whole_le
    (other.mantissa * 10 ^ (number.scale - other.scale))
  rw [← whole, sub_self, abs_zero] at nearer
  have same := sub_eq_zero.mp (abs_eq_zero.mp (le_antisymm nearer (abs_nonneg _)))
  rw [← toRat_mul_pow] at same
  exact (mul_right_cancel₀ step.ne' same).symm

/-- A decimal is the only number that represents it. -/
theorem Represents.toRat_eq {tie : Tie} {number other : Decimal}
    (represents : Represents tie other.toRat number) : number.toRat = other.toRat := by
  rcases represents.finest with same | filled | unfit
  · exact same
  · exact represents.toRat_eq_of_scale_le (filled ▸ other.scale_le)
  · refine represents.toRat_eq_of_scale_le ?_
    by_contra! fewer
    -- With its own places the mantissa fits, so it does with one place more than were taken.
    have grid : (10 : ℚ) ^ (number.scale + 1) ≤ 10 ^ other.scale :=
      pow_le_pow_right₀ (by norm_num) fewer
    have mantissa : |other.toRat| * 10 ^ other.scale ≤ 2 ^ 96 - 1 := by
      have bound := other.abs_mantissa_lt
      have bound : |other.mantissa| ≤ 2 ^ 96 - 1 := by omega
      rw [toRat_eq_mantissa_mul, abs_mul_zpow, zpow_neg, zpow_natCast,
        inv_mul_cancel_right₀ (by positivity)]
      exact_mod_cast bound
    linarith [mul_le_mul_of_nonneg_left grid (abs_nonneg other.toRat)]

/-- A value that is a decimal is found, and it is not rounded. -/
theorem IsTaken.exists_toRat_eq {number : Decimal} {taken : Option Decimal}
    (isTaken : IsTaken number.toRat taken) :
    ∃ found, taken = some found ∧ found.toRat = number.toRat := by
  have room : |number.toRat| + 1 / 2 < 2 ^ 96 := by linarith [number.abs_toRat_le_max]
  obtain ⟨found, taken, represents⟩ := isTaken.exists_represents room
  exact ⟨found, taken, represents.toRat_eq⟩

/-! ### Differences -/

section Differences

variable (left right : Decimal)

/-- Decimals have a common last place, and so have their differences. -/
theorem exists_multiple_sub :
    ∃ whole : ℤ, left.toRat - right.toRat = whole * 10 ^ (-28 : ℤ) := by
  have multiple (number : Decimal) : ∃ whole : ℤ, number.toRat = whole * 10 ^ (-28 : ℤ) := by
    have places := number.scale_le
    rw [toRat_eq_mantissa_mul]
    exact exists_multiple_of_le (by omega) number.mantissa
  obtain ⟨minuend, first⟩ := multiple left
  obtain ⟨subtrahend, second⟩ := multiple right
  refine ⟨minuend - subtrahend, ?_⟩
  rw [first, second, ← sub_mul, Int.cast_sub]

/-- Different decimals are a unit of the 28th place apart. -/
theorem unit_le_abs_sub (different : left.toRat ≠ right.toRat) :
    unit ≤ |left.toRat - right.toRat| := by
  obtain ⟨whole, multiple⟩ := exists_multiple_sub left right
  have nonzero : whole ≠ 0 := by
    rintro rfl
    exact different (sub_eq_zero.mp (by simpa using multiple))
  have one : (1 : ℚ) ≤ |(whole : ℚ)| := by exact_mod_cast Int.one_le_abs nonzero
  have step : (0 : ℚ) < 10 ^ (-28 : ℤ) := zpow_pos (by norm_num) _
  calc unit = 1 * 10 ^ (-28 : ℤ) := by norm_num [unit]
    _ ≤ |(whole : ℚ)| * 10 ^ (-28 : ℤ) := mul_le_mul_of_nonneg_right one step.le
    _ = |left.toRat - right.toRat| := by rw [multiple, abs_mul_zpow]

variable {left right}

/-- A difference of sixteen digits in the range of decimals is a decimal. -/
theorem exists_toRat_eq_sub (digits : HasDigits 16 (left.toRat - right.toRat))
    (range : |left.toRat - right.toRat| < 2 ^ 96) :
    ∃ number : Decimal, number.toRat = left.toRat - right.toRat := by
  obtain ⟨exponent, fits⟩ := hasDigits_iff.mp digits
  -- The last digit stands at a place that decimals have, or it is moved to the nearest of them.
  rcases le_total exponent (-28) with fine | within
  -- A digit behind the 28th place is none of a difference, so sixteen digits are more than fit.
  · have small := fits.abs_lt
    obtain ⟨whole, multiple⟩ := exists_multiple_sub left right
    have grid : (10 : ℚ) ^ exponent ≤ 10 ^ (-28 : ℤ) := zpow_le_zpow_right₀ (by norm_num) fine
    rw [multiple] at small ⊢
    refine (fitsAt_of_abs_lt (small.trans_le ?_)).exists_decimal le_rfl (by decide)
    exact mul_le_mul (by norm_num) grid (zpow_pos (by norm_num) _).le (by norm_num)
  · obtain ⟨coefficient, bounded, value⟩ := fits
    rcases le_total exponent 0 with behind | before
    · have room : FitsAt (2 ^ 96) exponent (left.toRat - right.toRat) :=
        ⟨coefficient, bounded.trans (by decide), value⟩
      exact room.exists_decimal within behind
    · obtain ⟨whole, multiple⟩ := exists_multiple_of_le before coefficient
      rw [value, multiple] at range ⊢
      refine (fitsAt_of_abs_lt (range.trans_eq ?_)).exists_decimal (by decide) le_rfl
      rw [zpow_zero, mul_one]
      norm_num

end Differences

end Decimal

end Rulebook

import Mathlib.Data.Sign.Basic
import Rulebook.Proofs.Arithmetic.Exactness

/-!
# The remainder is exact

A remainder is a multiple of the last place of the dividend or of the divisor, whichever is lower,
and it is no larger than either of them. So its coefficient is no longer than the one that stands at
this place: the remainder of two decimals is a decimal, and that of two numbers of sixteen digits
has sixteen digits. Neither rounding of the operation changes it.
-/
namespace Rulebook

open Decimal

/-! ### What truncation leaves -/

section Truncation

variable (value : ℚ)

theorem truncate_neg : truncate (-value) = -truncate value := by
  rw [truncate, truncate, Rat.num_neg_eq_neg_num, Rat.den_neg_eq_den, Int.neg_tdiv]

theorem truncate_intCast (whole : ℤ) : truncate whole = whole := by
  simp [truncate]

/-- Truncation leaves the remainder of the numerator by the denominator. -/
theorem sub_truncate_eq :
    value - truncate value = (value.num.tmod value.den : ℤ) / (value.den : ℚ) := by
  have den : (value.den : ℚ) ≠ 0 := by exact_mod_cast value.den_ne_zero
  rw [eq_div_iff den, sub_mul, Rat.mul_den_eq_num, Int.tmod_def, truncate]
  push_cast
  ring

theorem abs_sub_truncate_eq :
    |value - truncate value| = (value.num.natAbs % value.den : ℕ) / (value.den : ℚ) := by
  rw [sub_truncate_eq, abs_div, Nat.abs_cast, ← Int.cast_abs, Int.abs_eq_natAbs, Int.natAbs_tmod]
  rfl

theorem abs_sub_truncate_lt : |value - truncate value| < 1 := by
  have den : (0 : ℚ) < value.den := by exact_mod_cast value.den_pos
  rw [abs_sub_truncate_eq, div_lt_one den]
  exact_mod_cast Nat.mod_lt _ value.den_pos

theorem abs_sub_truncate_le : |value - truncate value| ≤ |value| := by
  have den : (0 : ℚ) < value.den := by exact_mod_cast value.den_pos
  rw [abs_sub_truncate_eq, div_le_iff₀ den, ← Nat.abs_cast value.den, ← abs_mul, Rat.mul_den_eq_num,
    ← Int.cast_abs, ← Nat.cast_natAbs]
  exact Nat.cast_le.mpr (Nat.mod_le _ _)

theorem sub_truncate_mul_nonneg : 0 ≤ (value - truncate value) * value := by
  have of_nonneg {value : ℚ} (nonneg : 0 ≤ value) : 0 ≤ (value - truncate value) * value := by
    have part := Int.tmod_nonneg value.den (Rat.num_nonneg.mpr nonneg)
    refine mul_nonneg ?_ nonneg
    rw [sub_truncate_eq]
    exact div_nonneg (by exact_mod_cast part) (by positivity)
  -- Negative values are the mirror image of positive ones.
  rcases le_total 0 value with above | below
  · exact of_nonneg above
  · have mirrored := of_nonneg (neg_nonneg.mpr below)
    rw [truncate_neg] at mirrored
    push_cast at mirrored
    linarith

end Truncation

/-! ### Remainders of rationals -/

/-- What truncated division leaves of the dividend. -/
def remainder (dividend divisor : ℚ) : ℚ :=
  dividend - divisor * truncate (dividend / divisor)

section Remainder

variable {dividend divisor : ℚ}

theorem remainder_eq_mul (nonzero : divisor ≠ 0) :
    remainder dividend divisor =
      divisor * (dividend / divisor - truncate (dividend / divisor)) := by
  rw [remainder, mul_sub, mul_div_cancel₀ _ nonzero]

/-- A remainder is smaller than the divisor. -/
theorem abs_remainder_lt (nonzero : divisor ≠ 0) : |remainder dividend divisor| < |divisor| := by
  rw [remainder_eq_mul nonzero, abs_mul]
  exact mul_lt_of_lt_one_right (abs_pos.mpr nonzero) (abs_sub_truncate_lt _)

theorem abs_remainder_le (nonzero : divisor ≠ 0) : |remainder dividend divisor| ≤ |dividend| := by
  calc |remainder dividend divisor|
      = |divisor| * |dividend / divisor - truncate (dividend / divisor)| := by
        rw [remainder_eq_mul nonzero, abs_mul]
    _ ≤ |divisor| * |dividend / divisor| :=
        mul_le_mul_of_nonneg_left (abs_sub_truncate_le _) (abs_nonneg _)
    _ = |dividend| := by rw [← abs_mul, mul_div_cancel₀ _ nonzero]

theorem remainder_mul_nonneg (nonzero : divisor ≠ 0) :
    0 ≤ remainder dividend divisor * dividend := by
  let quotient := dividend / divisor
  calc (0 : ℚ)
      ≤ divisor ^ 2 * ((quotient - truncate quotient) * quotient) :=
        mul_nonneg (sq_nonneg divisor) (sub_truncate_mul_nonneg quotient)
    _ = divisor * (quotient - truncate quotient) * (divisor * quotient) := by ring
    _ = remainder dividend divisor * dividend := by
        rw [remainder_eq_mul nonzero, mul_div_cancel₀ _ nonzero]

/-- A remainder is zero or has the sign of the dividend. -/
theorem sign_remainder (nonzero : divisor ≠ 0) :
    remainder dividend divisor = 0 ∨
      SignType.sign (remainder dividend divisor) = SignType.sign dividend := by
  refine or_iff_not_imp_left.mpr fun rest => ?_
  -- Zero leaves no remainder, so the dividend is not zero.
  have whole : dividend ≠ 0 := by
    rintro rfl
    have small : |remainder 0 divisor| ≤ |0| := abs_remainder_le nonzero
    rw [abs_zero, abs_nonpos_iff] at small
    exact rest small
  -- Neither factor is zero, so the product is positive and the signs agree.
  have positive := lt_of_le_of_ne (remainder_mul_nonneg nonzero) (mul_ne_zero rest whole).symm
  rcases pos_and_pos_or_neg_and_neg_of_mul_pos positive with ⟨above, above'⟩ | ⟨below, below'⟩
  · rw [sign_pos above, sign_pos above']
  · rw [sign_neg below, sign_neg below']

/-- Exactly the multiples of the divisor leave nothing. -/
theorem remainder_eq_zero_iff (nonzero : divisor ≠ 0) :
    remainder dividend divisor = 0 ↔ ∃ count : ℤ, dividend = count * divisor := by
  constructor
  · intro none
    exact ⟨truncate (dividend / divisor), by rw [mul_comm]; exact sub_eq_zero.mp none⟩
  · rintro ⟨count, rfl⟩
    rw [remainder, mul_div_cancel_right₀ _ nonzero, truncate_intCast, mul_comm, sub_self]

/-- What divides on a grid leaves a multiple of its step. -/
theorem exists_multiple_remainder (whole other exponent : ℤ) :
    ∃ rest : ℤ,
      remainder (whole * 10 ^ exponent) (other * 10 ^ exponent) = rest * 10 ^ exponent := by
  refine ⟨whole - other * truncate (whole * 10 ^ exponent / (other * 10 ^ exponent)), ?_⟩
  rw [remainder]
  push_cast
  ring

/-- A bound on the coefficients of both operands is kept at the lower of their last places. -/
theorem fitsAt_remainder {bound exponent exponent' : ℤ} (fits : FitsAt bound exponent dividend)
    (fits' : FitsAt bound exponent' divisor) (nonzero : divisor ≠ 0) :
    FitsAt bound (min exponent exponent') (remainder dividend divisor) := by
  obtain ⟨whole, -, value⟩ := id fits
  obtain ⟨other, -, value'⟩ := id fits'
  rcases le_total exponent exponent' with le | ge
  -- At the last place of the dividend the remainder is no larger than the dividend, at that of the
  -- divisor it is smaller than the divisor.
  · have small := (abs_remainder_le nonzero).trans_lt fits.abs_lt
    obtain ⟨more, finer⟩ := exists_multiple_of_le le other
    obtain ⟨rest, multiple⟩ := exists_multiple_remainder whole more exponent
    rw [min_eq_left le]
    rw [value, value', finer, multiple] at small ⊢
    exact fitsAt_of_abs_lt small
  · have small : |remainder dividend divisor| < bound * 10 ^ exponent' :=
      (abs_remainder_lt nonzero).trans fits'.abs_lt
    obtain ⟨more, finer⟩ := exists_multiple_of_le ge whole
    obtain ⟨rest, multiple⟩ := exists_multiple_remainder more other exponent'
    rw [min_eq_right ge]
    rw [value, value', finer, multiple] at small ⊢
    exact fitsAt_of_abs_lt small

theorem hasDigits_remainder {count : ℕ} (digits : HasDigits count dividend)
    (digits' : HasDigits count divisor) (nonzero : divisor ≠ 0) :
    HasDigits count (remainder dividend divisor) := by
  obtain ⟨exponent, fits⟩ := hasDigits_iff.mp digits
  obtain ⟨exponent', fits'⟩ := hasDigits_iff.mp digits'
  exact hasDigits_iff.mpr ⟨_, fitsAt_remainder fits fits' nonzero⟩

end Remainder

/-! ### Remainders of decimals -/

namespace Decimal

variable (left : Decimal) {right : Decimal}

theorem exists_toRat_eq_remainder (nonzero : right.toRat ≠ 0) :
    ∃ number : Decimal, number.toRat = remainder left.toRat right.toRat := by
  have places := left.scale_le
  have places' := right.scale_le
  exact (fitsAt_remainder left.fitsAt right.fitsAt nonzero).exists_decimal (by omega) (by omega)

/-- The remainder of two decimals is found, and it is not rounded. -/
theorem exists_remainder? (nonzero : right.toRat ≠ 0) :
    ∃ rest, left.remainder? right = some rest ∧
      rest.toRat = remainder left.toRat right.toRat := by
  obtain ⟨number, value⟩ := exists_toRat_eq_remainder left nonzero
  have isTaken := remainder?_isTaken left right
  change IsTaken (remainder left.toRat right.toRat) _ at isTaken
  rw [← value] at isTaken ⊢
  exact isTaken.exists_toRat_eq

end Decimal

namespace Arithmetic

variable (left : Decimal) {right : Decimal}

/-- The operation finds the exact remainder of the normal forms and settles it. -/
theorem exists_modulus (nonzero : (normalize right).toRat ≠ 0) :
    ∃ rest : Decimal, modulus left right = .ok (normalize rest) ∧
      rest.toRat = remainder (normalize left).toRat (normalize right).toRat := by
  obtain ⟨rest, found, value⟩ := exists_remainder? (normalize left) nonzero
  refine ⟨rest, ?_, value⟩
  rw [modulus_eq_settle (mt (mantissa_eq_zero_iff _).mp nonzero), found, settle]

/-- A divisor that is normalized to zero is reported. -/
theorem modulus_of_zero (zero : (normalize right).toRat = 0) :
    modulus left right = .error .divisionByZero := by
  rw [modulus, if_pos ((isZero_iff _).mpr zero)]

/-- The remainder of two numbers of sixteen digits is exact: it is below the divisor in magnitude,
and zero or of the sign of the dividend. -/
theorem modulus_is_exact (left right : Decimal) (digits : HasDigits 16 left.toRat)
    (digits' : HasDigits 16 right.toRat) (nonzero : right.toRat ≠ 0) :
    ∃ result, modulus left right = .ok result ∧
      result.toRat = left.toRat - right.toRat * truncate (left.toRat / right.toRat) ∧
      |result.toRat| < |right.toRat| ∧
      (result.toRat = 0 ∨ SignType.sign result.toRat = SignType.sign left.toRat) := by
  obtain ⟨rest, ok, value⟩ := exists_modulus left (toRat_normalize_ne_zero nonzero)
  rw [digits.toRat_normalize, digits'.toRat_normalize] at value
  -- The remainder of the operands has sixteen digits, so its normal form is itself.
  have short : HasDigits 16 rest.toRat := value ▸ hasDigits_remainder digits digits' nonzero
  refine ⟨normalize rest, ok, ?_⟩
  rw [short.toRat_normalize, value]
  exact ⟨rfl, abs_remainder_lt nonzero, sign_remainder nonzero⟩

/-- Of a large dividend and a divisor with all 28 places, which is not divided evenly. -/
theorem modulus_is_exact_of_far_scales :
    let dividend : Decimal := { mantissa := -70000000000000000000000000000, scale := 0 }
    let divisor : Decimal := { mantissa := 9999999999999999, scale := 28 }
    HasDigits 16 dividend.toRat ∧ HasDigits 16 divisor.toRat ∧ divisor.toRat ≠ 0 ∧
      ∃ result, modulus dividend divisor = .ok result ∧
        result.toRat =
          dividend.toRat - divisor.toRat * truncate (dividend.toRat / divisor.toRat) ∧
        |result.toRat| < |divisor.toRat| ∧
        (result.toRat = 0 ∨ SignType.sign result.toRat = SignType.sign dividend.toRat) := by
  intro dividend divisor
  have digits : HasDigits 16 dividend.toRat := ⟨-7, 28, by decide, by decide +kernel⟩
  have digits' : HasDigits 16 divisor.toRat := ⟨9999999999999999, -28, by decide, by decide +kernel⟩
  have nonzero : divisor.toRat ≠ 0 := by decide +kernel
  exact ⟨digits, digits', nonzero, modulus_is_exact dividend divisor digits digits' nonzero⟩

end Arithmetic

end Rulebook

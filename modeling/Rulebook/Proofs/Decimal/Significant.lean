import Rulebook.Proofs.Decimal.Normal
import Rulebook.Proofs.Decimal.Represented

/-!
# Sixteen significant digits

Normalizing keeps sixteen digits: it rounds a number at the last place that they leave it. There is
one exception. A number of 29 digits close to the largest one can be rounded out of range, and such
a number keeps all its digits. Below that limit every normal form has sixteen digits, and none has
above it.
-/
namespace Rulebook

/-- The value is a multiple of a power of ten by a coefficient of at most `count` digits. -/
def HasDigits (count : ℕ) (value : ℚ) : Prop :=
  ∃ coefficient exponent : ℤ, |coefficient| < 10 ^ count ∧ value = coefficient * 10 ^ exponent

/-- The result is the multiple of a power of ten nearest to the value, of two the even one. -/
def RoundsTo (exponent : ℤ) (value result : ℚ) : Prop :=
  ∃ whole : ℤ, IsNearest .even (value / 10 ^ exponent) whole ∧ result = whole * 10 ^ exponent

/-- Where sixteen digits end: half way from the last multiple of `10 ^ 13` in the range of decimals
to the next one, which is out of range. -/
def digitLimit : ℚ := 79228162514264335 * 10 ^ 12

/-- A coefficient that is rounded up to a further digit ends with zeros. -/
theorem hasDigits_of_abs_le {coefficient : ℤ} (exponent : ℤ)
    (bounded : |coefficient| ≤ 10 ^ 16) : HasDigits 16 (coefficient * 10 ^ exponent) := by
  rcases bounded.lt_or_eq with below | full
  · exact ⟨coefficient, exponent, below, rfl⟩
  · refine ⟨coefficient.sign, exponent + 16, ?_, ?_⟩
    · rcases Int.sign_trichotomy coefficient with sign | sign | sign <;> rw [sign] <;> decide
    · have digits : (coefficient : ℚ) = coefficient.sign * 10 ^ 16 := by
        exact_mod_cast full ▸ (Int.sign_mul_abs coefficient).symm
      rw [digits, zpow_add₀ (by norm_num), mul_assoc, mul_comm (10 ^ 16 : ℚ)]
      rfl

/-- Sixteen digits before the thirteenth zero are far from the limit. -/
theorem abs_mul_zpow_lt_limit {coefficient : ℚ} {exponent : ℤ} (digits : |coefficient| ≤ 10 ^ 16)
    (fine : exponent ≤ 12) : |coefficient * 10 ^ exponent| < digitLimit := by
  have grid : (10 : ℚ) ^ exponent ≤ 10 ^ (12 : ℤ) := zpow_le_zpow_right₀ (by norm_num) fine
  have step : (0 : ℚ) < 10 ^ exponent := zpow_pos (by norm_num) _
  calc |coefficient * 10 ^ exponent|
      = |coefficient| * 10 ^ exponent := by rw [abs_mul, abs_of_pos step]
    _ ≤ 10 ^ 16 * 10 ^ (12 : ℤ) := mul_le_mul digits grid step.le (by norm_num)
    _ < digitLimit := by norm_num [digitLimit]

/-- A value of sixteen digits in the range of decimals lies below the limit. -/
theorem HasDigits.abs_lt_limit {value : ℚ} (digits : HasDigits 16 value)
    (fits : |value| < 2 ^ 96) : |value| < digitLimit := by
  obtain ⟨coefficient, exponent, digits, rfl⟩ := digits
  rcases le_or_gt exponent 12 with fine | coarse
  · exact abs_mul_zpow_lt_limit (by exact_mod_cast digits.le) fine
  · obtain ⟨more, rfl⟩ : ∃ more : ℕ, exponent = (more + 13 : ℕ) :=
      ⟨(exponent - 13).toNat, by omega⟩
    -- There is no multiple of `10 ^ 13` from the limit up to the first number out of range.
    have multiple : |(coefficient : ℚ) * 10 ^ ((more + 13 : ℕ) : ℤ)| =
        (|coefficient * 10 ^ more| * 10 ^ 13 : ℤ) := by
      rw [zpow_natCast, pow_add, ← mul_assoc, abs_mul, abs_pow, Nat.abs_ofNat]
      push_cast
      rfl
    rw [multiple] at fits ⊢
    have fits : |coefficient * 10 ^ more| * 10 ^ 13 < 2 ^ 96 := by exact_mod_cast fits
    have below : |coefficient * 10 ^ more| * 10 ^ 13 < 79228162514264335 * 10 ^ 12 := by omega
    rw [digitLimit]
    exact_mod_cast below

/-- Without the digits in excess sixteen are left. -/
theorem lt_pow_excessDigits (coefficient : ℕ) :
    coefficient < 10 ^ (16 + excessDigits coefficient) := by
  fun_induction excessDigits coefficient with
  | case1 coefficient short => simpa using short
  | case2 coefficient long ih =>
    rw [← Nat.add_assoc, pow_succ]
    omega

/-- If there are digits in excess, all sixteen others are there. -/
theorem pow_excessDigits_le {coefficient : ℕ} (excess : excessDigits coefficient ≠ 0) :
    10 ^ (15 + excessDigits coefficient) ≤ coefficient := by
  fun_induction excessDigits coefficient with
  | case1 coefficient short => exact absurd rfl excess
  | case2 coefficient long ih =>
    by_cases last : excessDigits (coefficient / 10) = 0
    · rw [last]
      exact Nat.le_of_not_lt long
    · have shorter := ih last
      rw [← Nat.add_assoc, pow_succ]
      omega

namespace Decimal

variable (number : Decimal)

/-- How many digits are rounded away. -/
def excess : ℕ :=
  excessDigits number.mantissa.natAbs

/-- The exponent of the last digit that is kept. -/
def lastPlace : ℤ :=
  number.excess - number.scale

/-- The digits that are kept, as a coefficient. -/
def kept : ℤ :=
  roundRatio .even number.mantissa (powerOfTen number.excess)

theorem abs_mantissa_lt_pow : |number.mantissa| < 10 ^ (16 + number.excess) := by
  rw [Int.abs_eq_natAbs]
  exact_mod_cast lt_pow_excessDigits number.mantissa.natAbs

theorem abs_mantissa_le_pow_sub_one : |(number.mantissa : ℚ)| ≤ 10 ^ (16 + number.excess) - 1 := by
  have digits := number.abs_mantissa_lt_pow
  have digits : |number.mantissa| ≤ 10 ^ (16 + number.excess) - 1 := by omega
  exact_mod_cast digits

theorem pow_le_abs_mantissa (excess : number.excess ≠ 0) :
    10 ^ (15 + number.excess) ≤ |number.mantissa| := by
  rw [Int.abs_eq_natAbs]
  exact_mod_cast pow_excessDigits_le excess

theorem excess_le : number.excess ≤ 13 := by
  by_contra more
  have long := number.pow_le_abs_mantissa (by omega)
  -- One digit more than thirteen in excess would be the thirtieth.
  have grows : (10 : ℤ) ^ 29 ≤ 10 ^ (15 + number.excess) :=
    pow_le_pow_right₀ (by norm_num) (by omega)
  have short := number.abs_mantissa_lt
  omega

theorem lastPlace_le : number.lastPlace ≤ 13 := by
  have bound := number.excess_le
  rw [lastPlace]
  omega

/-- A value in units of a place, from its digits at 28 places or fewer. -/
theorem div_place (value : ℚ) (digits places : ℕ) :
    value / 10 ^ ((digits : ℤ) - places) = value * 10 ^ places / 10 ^ digits := by
  rw [zpow_sub₀ (by norm_num), zpow_natCast, zpow_natCast]
  field_simp

/-- The mantissa in units of the last place that is kept. -/
theorem toRat_div_lastPlace :
    number.toRat / 10 ^ number.lastPlace = number.mantissa / 10 ^ number.excess := by
  rw [lastPlace, div_place, toRat_mul_pow]

/-- What is kept is nearest to the number at its last place. -/
theorem kept_isNearest : IsNearest .even (number.toRat / 10 ^ number.lastPlace) number.kept := by
  have nearest := roundRatio_isNearest .even number.mantissa (powerOfTen_pos number.excess)
  rwa [cast_powerOfTen, ← toRat_div_lastPlace] at nearest

theorem abs_div_lastPlace_lt : |number.toRat / 10 ^ number.lastPlace| < 10 ^ 16 := by
  have bound : |(number.mantissa : ℚ)| < 10 ^ (16 + number.excess) := by
    linarith [number.abs_mantissa_le_pow_sub_one]
  rwa [toRat_div_lastPlace, abs_div, abs_pow, Nat.abs_ofNat, div_lt_iff₀ (by positivity), ← pow_add]

theorem abs_kept_le : |number.kept| ≤ 10 ^ 16 := by
  have near := number.kept_isNearest.abs_whole_le
  have bound := number.abs_div_lastPlace_lt
  have short : |(number.kept : ℚ)| < 10 ^ 16 + 1 := by linarith
  have short : |number.kept| < 10 ^ 16 + 1 := by exact_mod_cast short
  omega

/-- What is kept fits exactly below the limit. The limit itself is half way to an even coefficient
and does not fit. -/
theorem kept_fits_iff :
    |(number.kept : ℚ) * 10 ^ number.lastPlace| < 2 ^ 96 ↔ |number.toRat| < digitLimit := by
  have step : (0 : ℚ) < 10 ^ number.lastPlace := zpow_pos (by norm_num) _
  have value : number.toRat / 10 ^ number.lastPlace * 10 ^ number.lastPlace = number.toRat :=
    div_mul_cancel₀ _ step.ne'
  -- Only thirteen zeros leave a choice; there the coefficient alone decides.
  rcases number.lastPlace_le.lt_or_eq with fine | coarse
  · have keptBound : |(number.kept : ℚ)| ≤ 10 ^ 16 := by exact_mod_cast number.abs_kept_le
    have fits := abs_mul_zpow_lt_limit keptBound (Int.le_of_lt_add_one fine)
    have short := abs_mul_zpow_lt_limit number.abs_div_lastPlace_lt.le (Int.le_of_lt_add_one fine)
    rw [value] at short
    exact iff_of_true (fits.trans (by norm_num [digitLimit])) short
  · have reached : 7922816251426434 ≤ |number.kept| ↔
        ((7922816251426434 : ℤ) : ℚ) ≤ |number.toRat / 10 ^ number.lastPlace| + 1 / 2 :=
      number.kept_isNearest.le_abs_iff (by decide)
    -- Next to the largest decimal this is the first multiple without room.
    have whole : |number.kept| * 10 ^ 13 < 2 ^ 96 ↔ |number.kept| < 7922816251426434 := by omega
    have fits : |(number.kept : ℚ)| * 10 ^ (13 : ℤ) < 2 ^ 96 ↔
        |number.kept| < 7922816251426434 := by
      rw [← whole]
      exact_mod_cast Iff.rfl
    rw [← value, abs_mul, abs_mul, abs_of_pos step]
    rw [coarse] at reached ⊢
    rw [fits, ← not_le, reached, not_le, digitLimit]
    generalize |number.toRat / 10 ^ (13 : ℤ)| = digits
    norm_num
    constructor <;> intro below <;> linarith

/-- Digits behind the point are rounded away by rounding to fewer places. -/
theorem toRat_roundTo_lastPlace (behind : number.excess ≤ number.scale) :
    (number.roundTo .even (number.scale - number.excess)).toRat =
      number.kept * 10 ^ number.lastPlace := by
  obtain ⟨mantissa, scale⟩ := roundTo_parts .even (Nat.sub_le number.scale number.excess)
  rw [Nat.sub_sub_self behind] at mantissa
  have step : (10 : ℚ) ^ number.lastPlace = (10 ^ (number.scale - number.excess))⁻¹ := by
    rw [← zpow_natCast, ← zpow_neg, lastPlace, Nat.cast_sub behind, neg_sub]
  rw [toRat_eq_div, mantissa, scale, step, div_eq_mul_inv]
  rfl

/-- Digits before the point are replaced by zeros, unless the whole number does not fit. -/
theorem toRat_getD_lastPlace (before : number.scale ≤ number.excess) :
    ((ofParts? (number.kept * powerOfTen (number.excess - number.scale)) 0).getD number).toRat =
      if |(number.kept : ℚ) * 10 ^ number.lastPlace| < 2 ^ 96 then
        (number.kept : ℚ) * 10 ^ number.lastPlace
      else number.toRat := by
  have whole : (number.kept : ℚ) * 10 ^ number.lastPlace =
      (number.kept * powerOfTen (number.excess - number.scale) : ℤ) := by
    rw [lastPlace, ← Nat.cast_sub before, zpow_natCast, ← cast_powerOfTen]
    push_cast
    rfl
  rw [whole]
  cases made : ofParts? (number.kept * powerOfTen (number.excess - number.scale)) 0 with
  | none =>
    rw [ofParts?_eq_none_iff (by decide)] at made
    rw [if_neg (not_lt.mpr (by exact_mod_cast made))]
    rfl
  | some rounded =>
    obtain ⟨mantissa, scale, -⟩ := ofParts?_eq_some_iff.mp made
    have value : rounded.toRat =
        (number.kept * powerOfTen (number.excess - number.scale) : ℤ) := by
      rw [toRat_eq_div, mantissa, scale, pow_zero, div_one]
    rw [Option.getD_some, ← value, if_pos rounded.abs_toRat_lt]

/-- Rounding to sixteen digits rounds at the last place, where the result fits. -/
theorem toRat_roundSignificant :
    (roundSignificant number).toRat =
      if |(number.kept : ℚ) * 10 ^ number.lastPlace| < 2 ^ 96 then
        (number.kept : ℚ) * 10 ^ number.lastPlace
      else number.toRat := by
  rw [roundSignificant]
  dsimp only
  split
  next behind =>
    rw [← number.toRat_roundTo_lastPlace behind, if_pos (abs_toRat_lt _)]
    rfl
  next before => exact number.toRat_getD_lastPlace (Nat.le_of_not_le before)

variable {number}

/-- Below the limit the digits that are kept make the normal form. -/
theorem toRat_normalize_of_lt (below : |number.toRat| < digitLimit) :
    (normalize number).toRat = (number.kept : ℚ) * 10 ^ number.lastPlace := by
  rw [normalize_eq_trim, toRat_trim, toRat_roundSignificant,
    if_pos (number.kept_fits_iff.mpr below)]

/-- From the limit on nothing is rounded. -/
theorem toRat_normalize_of_le (above : digitLimit ≤ |number.toRat|) :
    (normalize number).toRat = number.toRat := by
  rw [normalize_eq_trim, toRat_trim, toRat_roundSignificant,
    if_neg fun fits => absurd (number.kept_fits_iff.mp fits) above.not_gt]

/-- Below the limit a normal form is its number, rounded at the last place that is kept. -/
theorem normalize_roundsTo (below : |number.toRat| < digitLimit) :
    RoundsTo number.lastPlace number.toRat (normalize number).toRat :=
  ⟨number.kept, number.kept_isNearest, toRat_normalize_of_lt below⟩

/-- A normal form of sixteen digits comes from a number below the limit. -/
theorem abs_lt_limit_of_normalize (digits : HasDigits 16 (normalize number).toRat) :
    |number.toRat| < digitLimit := by
  by_contra above
  rw [toRat_normalize_of_le (not_lt.mp above)] at digits
  exact above (digits.abs_lt_limit number.abs_toRat_lt)

/-- A normal form has sixteen digits exactly below the limit. -/
theorem hasDigits_normalize_iff (number : Decimal) :
    HasDigits 16 (normalize number).toRat ↔ |(normalize number).toRat| < digitLimit := by
  constructor
  · intro digits
    exact digits.abs_lt_limit (normalize number).abs_toRat_lt
  · intro below
    rcases lt_or_ge |number.toRat| digitLimit with small | large
    · rw [toRat_normalize_of_lt small]
      exact hasDigits_of_abs_le _ number.abs_kept_le
    -- A number beyond the limit stays there.
    · rw [toRat_normalize_of_le large] at below
      exact absurd below large.not_gt

end Decimal

end Rulebook

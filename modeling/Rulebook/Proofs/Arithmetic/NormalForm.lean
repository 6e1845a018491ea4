import Rulebook.Proofs.Arithmetic.PlainText
import Rulebook.Proofs.Decimal.Order

/-!
# Normal forms as roundings

The values of sixteen digits are an infinite grid that gets coarser with the magnitude, and taking a
number to the nearest of them, of two to the even one, is a function of its value. Normalizing is
this function as long as it stays in the range of decimals, and the identity beyond.
-/
namespace Rulebook

/-- The value of so many digits that is nearest to a given one. Two values as near as each other are
neighbours, so their distance is one unit of the last digit, and the even one is taken. -/
structure IsNearestDigits (count : ℕ) (value result : ℚ) : Prop where
  digits : HasDigits count result
  nearest : ∀ other, HasDigits count other → |value - result| ≤ |value - other|
  even : ∀ other, HasDigits count other → other ≠ result → |value - other| = |value - result| →
    ∃ multiple : ℤ, Even multiple ∧ result = multiple * |result - other|

namespace IsNearestDigits

variable {count : ℕ} {value value' result result' : ℚ}

/-- Results do not cross. -/
theorem le_of_lt (rounded : IsNearestDigits count value result)
    (rounded' : IsNearestDigits count value' result') (below : value < value') :
    result ≤ result' := by
  by_contra! crossed
  -- Each value is on its own side of the middle between the two results.
  have left := sq_le_sq.mpr (rounded.nearest result' rounded'.digits)
  have right := sq_le_sq.mpr (rounded'.nearest result rounded.digits)
  have middle : (result - result') * (result + result' - 2 * value) ≤ 0 := by linarith
  have middle' : (result - result') * (2 * value' - (result + result')) ≤ 0 := by linarith
  have gap : 0 < result - result' := sub_pos.mpr crossed
  have above := nonpos_of_mul_nonpos_right middle gap
  have under := nonpos_of_mul_nonpos_right middle' gap
  linarith

/-- The nearest value is one only, ties included. -/
theorem unique (rounded : IsNearestDigits count value result)
    (rounded' : IsNearestDigits count value result') : result = result' := by
  by_contra different
  have near := rounded.nearest result' rounded'.digits
  have near' := rounded'.nearest result rounded.digits
  obtain ⟨multiple, ⟨half, even⟩, units⟩ :=
    rounded.even result' rounded'.digits (Ne.symm different) (le_antisymm near' near)
  obtain ⟨multiple', ⟨half', even'⟩, units'⟩ :=
    rounded'.even result rounded.digits different (le_antisymm near near')
  -- Both would be even multiples of the distance between them.
  rw [abs_sub_comm result' result] at units'
  have gap : |result - result'| ≠ 0 := abs_ne_zero.mpr (sub_ne_zero.mpr different)
  have distance : |((multiple - multiple' : ℤ) : ℚ)| * |result - result'| = |result - result'| := by
    rw [← abs_abs (result - result'), ← abs_mul, abs_abs]
    push_cast
    rw [sub_mul, ← units, ← units']
  have one : |((multiple - multiple' : ℤ) : ℚ)| = 1 := by
    rwa [mul_eq_right₀ gap] at distance
  have one : |multiple - multiple'| = 1 := by exact_mod_cast one
  rcases abs_eq (zero_le_one' ℤ) |>.mp one with up | down <;> omega

end IsNearestDigits

namespace Decimal

variable (number : Decimal)

/-- A value of sixteen digits that is no multiple of the last place lies below all numbers with
this last place. -/
theorem multiple_or_lt_of_hasDigits {other : ℚ} (digits : HasDigits 16 other) :
    (∃ whole : ℤ, other = whole * 10 ^ number.lastPlace) ∨
      |other| < 10 ^ (number.lastPlace + 15) := by
  obtain ⟨coefficient, exponent, bounded, rfl⟩ := digits
  rcases le_or_gt number.lastPlace exponent with coarse | fine
  · exact .inl (exists_multiple_of_le coarse coefficient)
  -- Sixteen digits that end behind the last place end before the sixteenth place above it.
  · have bounded : |(coefficient : ℚ)| < 10 ^ (16 : ℤ) := by exact_mod_cast bounded
    have step : (0 : ℚ) < 10 ^ exponent := zpow_pos (by norm_num) _
    refine .inr ?_
    calc |coefficient * (10 : ℚ) ^ exponent|
        = |(coefficient : ℚ)| * 10 ^ exponent := by rw [abs_mul, abs_of_pos step]
      _ < 10 ^ (16 : ℤ) * 10 ^ exponent := mul_lt_mul_of_pos_right bounded step
      _ = 10 ^ (16 + exponent) := (zpow_add₀ (by norm_num) _ _).symm
      _ ≤ 10 ^ (number.lastPlace + 15) := zpow_le_zpow_right₀ (by norm_num) (by omega)

/-- A number from which digits are rounded away fills its last place. -/
theorem zpow_lastPlace_le (excess : number.excess ≠ 0) :
    10 ^ (number.lastPlace + 15) ≤ |number.toRat| := by
  have long : (10 : ℚ) ^ (15 + number.excess) ≤ |(number.mantissa : ℚ)| := by
    exact_mod_cast number.pow_le_abs_mantissa excess
  have place : number.lastPlace + 15 = ((15 + number.excess : ℕ) : ℤ) - number.scale := by
    rw [lastPlace]
    omega
  rw [place, zpow_sub₀ (by norm_num), zpow_natCast, zpow_natCast, toRat_eq_div, abs_div, abs_pow,
    Nat.abs_ofNat]
  exact div_le_div_of_nonneg_right long (by positivity)

theorem kept_eq_of_excess (short : number.excess = 0) :
    (number.kept : ℚ) * 10 ^ number.lastPlace = number.toRat := by
  have value := number.toRat_div_lastPlace
  have step : (10 : ℚ) ^ number.lastPlace ≠ 0 := zpow_ne_zero _ (by norm_num)
  rw [kept, short, powerOfTen_zero, roundRatio_one]
  rw [short, pow_zero, div_one, div_eq_iff step] at value
  exact value.symm

/-- Distances to multiples of the last place, counted in units of it. -/
theorem abs_toRat_sub_multiple (whole : ℤ) :
    |number.toRat - whole * 10 ^ number.lastPlace| =
      |number.toRat / 10 ^ number.lastPlace - whole| * 10 ^ number.lastPlace := by
  have step : (0 : ℚ) < 10 ^ number.lastPlace := zpow_pos (by norm_num) _
  calc |number.toRat - whole * 10 ^ number.lastPlace|
      = |(number.toRat / 10 ^ number.lastPlace - whole) * 10 ^ number.lastPlace| := by
        rw [sub_mul, div_mul_cancel₀ _ step.ne']
    _ = |number.toRat / 10 ^ number.lastPlace - whole| * 10 ^ number.lastPlace := by
        rw [abs_mul, abs_of_pos step]

/-- A value of sixteen digits off the multiples of the last place is not the nearest one: there is a
power of ten between it and the number. -/
theorem abs_sub_kept_lt {other : ℚ} (excess : number.excess ≠ 0)
    (small : |other| < 10 ^ (number.lastPlace + 15)) :
    |number.toRat - number.kept * 10 ^ number.lastPlace| < |number.toRat - other| := by
  have step : (0 : ℚ) < 10 ^ number.lastPlace := zpow_pos (by norm_num) _
  have filled := number.zpow_lastPlace_le excess
  have power : (10 : ℚ) ^ (number.lastPlace + 15) = (10 ^ 15 : ℤ) * 10 ^ number.lastPlace := by
    rw [zpow_add₀ (by norm_num), mul_comm]
    norm_num
  -- The power of ten with the sign of the number is a multiple of the last place.
  have between : |number.toRat - number.kept * 10 ^ number.lastPlace| ≤
      |number.toRat| - 10 ^ (number.lastPlace + 15) := by
    have nearer (whole : ℤ) : |number.toRat - number.kept * 10 ^ number.lastPlace| ≤
        |number.toRat - whole * 10 ^ number.lastPlace| := by
      rw [abs_toRat_sub_multiple, abs_toRat_sub_multiple]
      exact mul_le_mul_of_nonneg_right (number.kept_isNearest.abs_sub_whole_le whole) step.le
    rcases le_total 0 number.toRat with positive | negative
    · have near := nearer (10 ^ 15)
      rw [abs_of_nonneg positive] at filled ⊢
      rwa [← power, abs_of_nonneg (sub_nonneg.mpr filled)] at near
    · have near := nearer (-10 ^ 15)
      rw [abs_of_nonpos negative] at filled ⊢
      rw [Int.cast_neg, neg_mul, ← power, sub_neg_eq_add,
        abs_of_nonpos (a := number.toRat + _) (by linarith)] at near
      linarith
  linarith [abs_sub_abs_le_abs_sub number.toRat other]

theorem kept_isNearestDigits :
    IsNearestDigits 16 number.toRat (number.kept * 10 ^ number.lastPlace) := by
  have step : (0 : ℚ) < 10 ^ number.lastPlace := zpow_pos (by norm_num) _
  refine ⟨hasDigits_of_abs_le _ number.abs_kept_le, fun other digits => ?_,
    fun other digits different tied => ?_⟩
  · by_cases short : number.excess = 0
    · rw [number.kept_eq_of_excess short, sub_self, abs_zero]
      exact abs_nonneg _
    · rcases number.multiple_or_lt_of_hasDigits digits with ⟨whole, rfl⟩ | small
      · rw [abs_toRat_sub_multiple, abs_toRat_sub_multiple]
        exact mul_le_mul_of_nonneg_right (number.kept_isNearest.abs_sub_whole_le whole) step.le
      · exact (number.abs_sub_kept_lt short small).le
  · by_cases short : number.excess = 0
    · -- The number itself has sixteen digits, so no other value is as near.
      rw [number.kept_eq_of_excess short, sub_self, abs_zero, abs_eq_zero, sub_eq_zero] at tied
      exact absurd (tied.symm.trans (number.kept_eq_of_excess short).symm) different
    · rcases number.multiple_or_lt_of_hasDigits digits with ⟨whole, rfl⟩ | small
      · rw [abs_toRat_sub_multiple, abs_toRat_sub_multiple] at tied
        have tied := mul_right_cancel₀ step.ne' tied
        have other : whole ≠ number.kept := fun same => different (by rw [same])
        have near := number.kept_isNearest.near
        -- Another multiple as near is the next one, half a unit on the other side.
        have apart : (1 : ℚ) ≤ |(whole : ℚ) - number.kept| := by
          exact_mod_cast Int.one_le_abs (sub_ne_zero.mpr other)
        have path := abs_sub_le (whole : ℚ) (number.toRat / 10 ^ number.lastPlace) number.kept
        rw [abs_sub_comm (whole : ℚ) (number.toRat / _), tied] at path
        have half : |number.toRat / 10 ^ number.lastPlace - number.kept| = 1 / 2 := by linarith
        have unit : |(number.kept : ℚ) - whole| = 1 := by
          rw [abs_sub_comm]
          linarith
        refine ⟨number.kept, number.kept_isNearest.tied half, ?_⟩
        rw [← sub_mul, abs_mul, unit, one_mul, abs_of_pos step]
      · exact absurd tied (number.abs_sub_kept_lt short small).ne'

/-- The limit of sixteen digits is where the nearest value of sixteen digits leaves the range. -/
theorem abs_lt_limit_iff_of_isNearestDigits {nearest : ℚ}
    (rounded : IsNearestDigits 16 number.toRat nearest) :
    |number.toRat| < digitLimit ↔ |nearest| ≤ 2 ^ 96 - 1 := by
  obtain rfl := number.kept_isNearestDigits.unique rounded
  rw [← kept_fits_iff]
  constructor
  · intro fits
    have below := rounded.digits.abs_lt_limit fits
    exact below.le.trans (by norm_num [digitLimit])
  · intro fits
    linarith

theorem toRat_normalize_of_isNearestDigits {nearest : ℚ}
    (rounded : IsNearestDigits 16 number.toRat nearest) :
    (normalize number).toRat = if |nearest| ≤ 2 ^ 96 - 1 then nearest else number.toRat := by
  have limit := number.abs_lt_limit_iff_of_isNearestDigits rounded
  split
  next fits =>
    rw [toRat_normalize_of_lt (limit.mpr fits)]
    exact number.kept_isNearestDigits.unique rounded
  next unfit => exact toRat_normalize_of_le (not_lt.mp fun below => unfit (limit.mp below))

/-- Beyond the limit numbers stay as they are, and no number below it gets there. -/
theorem toRat_normalize_le {number other : Decimal} (le : number.toRat ≤ other.toRat) :
    (normalize number).toRat ≤ (normalize other).toRat := by
  rcases le.eq_or_lt with same | below
  · rw [normalize_eq_of_toRat_eq same]
  -- Below the limit the normal form has sixteen digits and stays below it.
  have stays {number : Decimal} (small : |number.toRat| < digitLimit) :
      |(normalize number).toRat| < digitLimit := by
    rw [← hasDigits_normalize_iff, toRat_normalize_of_lt small]
    exact number.kept_isNearestDigits.digits
  rcases lt_or_ge |number.toRat| digitLimit with small | large
  · rcases lt_or_ge |other.toRat| digitLimit with small' | large'
    · rw [toRat_normalize_of_lt small, toRat_normalize_of_lt small']
      exact number.kept_isNearestDigits.le_of_lt other.kept_isNearestDigits below
    · rw [toRat_normalize_of_le large']
      rcases le_abs.mp large' with above | under
      · linarith [(abs_lt.mp (stays small)).2]
      · linarith [(abs_lt.mp small).1]
  · rw [toRat_normalize_of_le large]
    rcases lt_or_ge |other.toRat| digitLimit with small' | large'
    · rcases le_abs.mp large with above | under
      · linarith [(abs_lt.mp small').2]
      · linarith [(abs_lt.mp (stays small')).1]
    · rwa [toRat_normalize_of_le large']

/-- Both zeros have plain zero for their normal form. -/
theorem normalize_eq_zero {number : Decimal} (zero : number.toRat = 0) :
    normalize number = .zero := by
  -- A normal form depends on the value alone.
  have same : number.toRat = Decimal.zero.toRat := by rw [zero]; decide +kernel
  rw [normalize_eq_of_toRat_eq same]
  decide +kernel

/-- No other number is normalized to zero. -/
theorem toRat_normalize_ne_zero {number : Decimal} (nonzero : number.toRat ≠ 0) :
    (normalize number).toRat ≠ 0 := by
  rcases lt_or_ge |number.toRat| digitLimit with small | large
  · intro zero
    rw [toRat_normalize_of_lt small] at zero
    by_cases short : number.excess = 0
    · exact nonzero ((number.kept_eq_of_excess short).symm.trans zero)
    · -- A power of ten is nearer to the number than zero.
      have power : (0 : ℚ) < 10 ^ (number.lastPlace + 15) := zpow_pos (by norm_num) _
      have nearer := number.abs_sub_kept_lt short (abs_zero.trans_lt power)
      rw [zero] at nearer
      exact lt_irrefl _ nearer
  · rwa [toRat_normalize_of_le large]

end Decimal

open Decimal

/-- Normalizing is idempotent and monotone, sees the value alone, leaves no trailing zero behind the
point, and gives plain zero for zero and for nothing else. It finds the nearest value of sixteen
digits if that is in the range of decimals, and otherwise leaves the value as it is. -/
theorem normalize_rounds (number : Decimal) :
    normalize (normalize number) = normalize number ∧
    (∀ other : Decimal, number.toRat ≤ other.toRat →
      (normalize number).toRat ≤ (normalize other).toRat) ∧
    (∀ other : Decimal, number.toRat = other.toRat → normalize number = normalize other) ∧
    ((normalize number).scale = 0 ∨ (normalize number).mantissa % 10 ≠ 0) ∧
    (number.toRat = 0 → normalize number = .zero) ∧
    (number.toRat ≠ 0 → (normalize number).toRat ≠ 0) ∧
    ∃! nearest, IsNearestDigits 16 number.toRat nearest ∧
      (normalize number).toRat = if |nearest| ≤ 2 ^ 96 - 1 then nearest else number.toRat := by
  refine ⟨normalize_normalize number, fun _ => toRat_normalize_le,
    fun _ => normalize_eq_of_toRat_eq, ?trimmed, normalize_eq_zero, toRat_normalize_ne_zero,
    ?nearest⟩
  case trimmed =>
    rw [normalize_eq_trim]
    exact trim_trimmed _
  case nearest =>
    have rounded := number.kept_isNearestDigits
    exact ⟨_, ⟨rounded, number.toRat_normalize_of_isNearestDigits rounded⟩,
      fun other other' => other'.1.unique rounded⟩

/-- A tie in the last digit, a number that rounds up to more digits, and one beyond the limit. -/
theorem normalize_rounds_of_ties :
    let tie : Decimal := { mantissa := 10000000000000005, scale := 16 }
    let nines : Decimal := { mantissa := -99999999999999995, scale := 4 }
    let beyond : Decimal := { mantissa := 79228162514264335000000000001, scale := 0 }
    normalize tie = .one ∧ normalize nines = { mantissa := -10000000000000, scale := 0 } ∧
      nines.toRat ≤ tie.toRat ∧ (normalize nines).toRat ≤ (normalize tie).toRat ∧
      beyond.toRat ≠ 0 ∧ normalize beyond = beyond ∧
      ∃! nearest, IsNearestDigits 16 beyond.toRat nearest ∧
        beyond.toRat = if |nearest| ≤ 2 ^ 96 - 1 then nearest else beyond.toRat := by
  intro tie nines beyond
  have le : nines.toRat ≤ tie.toRat := by decide +kernel
  have kept : normalize beyond = beyond := by decide +kernel
  have rounded := (normalize_rounds beyond).2.2.2.2.2.2
  rw [kept] at rounded
  exact ⟨by decide +kernel, by decide +kernel, le, (normalize_rounds nines).2.1 tie le,
    by decide +kernel, kept, rounded⟩

end Rulebook

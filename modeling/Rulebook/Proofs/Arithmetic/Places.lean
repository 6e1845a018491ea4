import Mathlib.Data.Rat.Floor
import Rulebook.Proofs.Arithmetic.NormalForm

/-!
# Rounding to places

The kernel rounds a normal form to so many places, with two rules for ties, or to the integer below
or above it. Each of these roundings takes an integer for the value in units of the last place. It
takes integers for themselves and takes no less for more, and all else follows from these two facts.
What is found is a normal form again: where a place is rounded away, sixteen digits are left. A
negative number that is rounded to zero keeps its sign, which is taken from it only at the end.
-/
namespace Rulebook

open Decimal

/-- The roundings of the kernel. -/
inductive Rounding where
  | nearest (tie : Tie) (places : ℕ)
  | floor
  | ceil

namespace Rounding

/-- How many places are left behind the point. -/
def places : Rounding → ℕ
  | nearest _ places => places
  | floor => 0
  | ceil => 0

/-- A decimal rounded as it stands. -/
def onDecimal : Rounding → Decimal → Decimal
  | nearest tie places => Decimal.roundTo tie places
  | floor => Decimal.floor
  | ceil => Decimal.ceil

/-- The rounding of the kernel. -/
def apply : Rounding → Decimal → Decimal
  | nearest tie places => Arithmetic.roundAt tie places
  | floor => Arithmetic.floor
  | ceil => Arithmetic.ceil

/-- The integer is the nearest one by the rule for ties, the greatest one not above the value, or
the least one not below it. -/
def Takes : Rounding → ℚ → ℤ → Prop
  | nearest tie _, value, whole => IsNearest tie value whole
  | floor, value, whole => IsGreatest {other : ℤ | other ≤ value} whole
  | ceil, value, whole => IsLeast {other : ℤ | value ≤ other} whole

/-- The result is the multiple of the last place that the rounding takes for the value. -/
def Gives (rounding : Rounding) (value result : ℚ) : Prop :=
  ∃ whole : ℤ, rounding.Takes (value * 10 ^ rounding.places) whole ∧
    result = whole / 10 ^ rounding.places

section Takes

variable {rounding : Rounding} {value value' : ℚ} {whole whole' : ℤ}

/-- Every rounding takes an integer for itself. -/
theorem takes_intCast (rounding : Rounding) (whole : ℤ) : rounding.Takes whole whole := by
  cases rounding with
  | nearest tie places => exact .intCast whole
  | floor => exact ⟨le_refl (whole : ℚ), fun other below => by exact_mod_cast below⟩
  | ceil => exact ⟨le_refl (whole : ℚ), fun other above => by exact_mod_cast above⟩

theorem takes_floor (value : ℚ) : floor.Takes value ⌊value⌋ :=
  ⟨Int.floor_le value, fun _ below => Int.le_floor.mpr below⟩

theorem takes_ceil (value : ℚ) : ceil.Takes value ⌈value⌉ :=
  ⟨Int.le_ceil value, fun _ above => Int.ceil_le.mpr above⟩

/-- No rounding takes less for more. -/
theorem Takes.le (takes : rounding.Takes value whole) (takes' : rounding.Takes value' whole')
    (le : value ≤ value') : whole ≤ whole' := by
  cases rounding with
  | nearest tie places => exact IsNearest.le takes takes' le
  | floor => exact takes'.2 (le_trans takes.1 le)
  | ceil => exact takes.2 (le_trans le takes'.1)

theorem Takes.abs_whole_le {bound : ℤ} (takes : rounding.Takes value whole)
    (within : |value| ≤ bound) : |whole| ≤ bound := by
  obtain ⟨above, below⟩ := abs_le.mp within
  -- The bounds are integers, which are taken for themselves.
  exact abs_le.mpr ⟨(rounding.takes_intCast (-bound)).le takes (by exact_mod_cast above),
    takes.le (rounding.takes_intCast bound) below⟩

end Takes

section Gives

variable {rounding : Rounding} {value value' result result' : ℚ}

theorem Gives.le (gives : rounding.Gives value result) (gives' : rounding.Gives value' result')
    (le : value ≤ value') : result ≤ result' := by
  obtain ⟨whole, takes, rfl⟩ := gives
  obtain ⟨whole', takes', rfl⟩ := gives'
  have unit : (0 : ℚ) ≤ 10 ^ rounding.places := by positivity
  have scaled := mul_le_mul_of_nonneg_right le unit
  have ordered : (whole : ℚ) ≤ whole' := by exact_mod_cast takes.le takes' scaled
  exact div_le_div_of_nonneg_right ordered unit

/-- A rounding gives one result. -/
theorem Gives.unique (gives : rounding.Gives value result) (gives' : rounding.Gives value result') :
    result = result' :=
  le_antisymm (gives.le gives' le_rfl) (gives'.le gives le_rfl)

/-- A multiple of the last place is left as it is. -/
theorem gives_multiple (rounding : Rounding) (whole : ℤ) :
    rounding.Gives (whole / 10 ^ rounding.places) (whole / 10 ^ rounding.places) := by
  refine ⟨whole, ?_, rfl⟩
  rw [div_mul_cancel₀ _ (by positivity)]
  exact rounding.takes_intCast whole

theorem Gives.gives_self (gives : rounding.Gives value result) : rounding.Gives result result := by
  obtain ⟨whole, -, rfl⟩ := gives
  exact rounding.gives_multiple whole

/-- Where a value of sixteen digits is no multiple of the last place, it is left with fewer. -/
theorem Gives.hasDigits (gives : rounding.Gives value result) (digits : HasDigits 16 value) :
    HasDigits 16 result := by
  have last (whole : ℤ) : (whole : ℚ) / 10 ^ rounding.places =
      whole * 10 ^ (-(rounding.places : ℤ)) := by
    rw [zpow_neg, zpow_natCast, div_eq_mul_inv]
  have ⟨coefficient, exponent, bounded, value_eq⟩ := digits
  rcases le_or_gt (-(rounding.places : ℤ)) exponent with coarse | fine
  · obtain ⟨whole, multiple⟩ := exists_multiple_of_le coarse coefficient
    rw [← last, ← value_eq] at multiple
    have kept := rounding.gives_multiple whole
    rw [← multiple] at kept
    exact gives.unique kept ▸ digits
  · -- The last digit lies behind the place, so before it there are sixteen digits at most.
    obtain ⟨whole, takes, rfl⟩ := gives
    rw [last]
    refine hasDigits_of_abs_le _ (takes.abs_whole_le ?_)
    have bounded : |(coefficient : ℚ)| ≤ 10 ^ 16 := by exact_mod_cast bounded.le
    have small : (10 : ℚ) ^ (exponent + rounding.places) ≤ 1 :=
      zpow_le_one_of_nonpos₀ (by norm_num) (by omega)
    have step : (0 : ℚ) < 10 ^ (exponent + rounding.places) := zpow_pos (by norm_num) _
    rw [value_eq, mul_assoc, ← zpow_natCast (10 : ℚ), ← zpow_add₀ (by norm_num), abs_mul,
      abs_of_pos step]
    push_cast
    calc |(coefficient : ℚ)| * 10 ^ (exponent + rounding.places)
        ≤ |(coefficient : ℚ)| * 1 := mul_le_mul_of_nonneg_left small (abs_nonneg _)
      _ ≤ 10 ^ 16 := by rwa [mul_one]

end Gives

/-! ### Decimals -/

/-- A number with no more places than are left is left as it is. -/
theorem gives_of_scale_le {rounding : Rounding} {number : Decimal}
    (few : number.scale ≤ rounding.places) : rounding.Gives number.toRat number.toRat := by
  have multiple : number.toRat =
      (number.mantissa * 10 ^ (rounding.places - number.scale) : ℤ) / 10 ^ rounding.places := by
    rw [toRat_eq_div]
    push_cast
    rw [pow_sub₀ _ (by norm_num) few]
    field_simp
  rw [multiple]
  exact rounding.gives_multiple _

theorem gives_roundTo (tie : Tie) (places : ℕ) (number : Decimal) :
    (nearest tie places).Gives number.toRat (number.roundTo tie places).toRat := by
  rcases le_total places number.scale with within | few
  · obtain ⟨mantissa, scale⟩ := roundTo_parts tie within
    refine ⟨_, ?_, by rw [toRat_eq_div, mantissa, scale]; rfl⟩
    -- What lies behind the last place are the digits that the mantissa has more.
    have scaled : number.toRat * 10 ^ places =
        number.mantissa / (powerOfTen (number.scale - places) : ℕ) := by
      rw [toRat_eq_div, cast_powerOfTen, pow_sub₀ _ (by norm_num) within]
      field_simp
    exact scaled ▸ roundRatio_isNearest tie number.mantissa (powerOfTen_pos _)
  · have kept : number.roundTo tie places = number := dif_neg (Nat.not_lt.mpr few)
    rw [kept]
    exact gives_of_scale_le few

theorem toRat_floor (number : Decimal) : number.floor.toRat = ⌊number.toRat⌋ := by
  rw [toRat_eq_div number, ← cast_powerOfTen, Rat.floor_intCast_div_natCast, toRat_eq_div]
  simp [Decimal.floor]

theorem toRat_ceil (number : Decimal) : number.ceil.toRat = ⌈number.toRat⌉ := by
  rw [toRat_eq_div number, ← cast_powerOfTen, Rat.ceil_intCast_div_natCast, toRat_eq_div]
  simp [Decimal.ceil]

theorem gives_onDecimal (rounding : Rounding) (number : Decimal) :
    rounding.Gives number.toRat (rounding.onDecimal number).toRat := by
  cases rounding with
  | nearest tie places => exact gives_roundTo tie places number
  | floor =>
    -- Without places behind the point the last place is one.
    refine ⟨⌊number.toRat⌋, ?_, by rw [onDecimal, toRat_floor, places, pow_zero, div_one]⟩
    rw [places, pow_zero, mul_one]
    exact takes_floor number.toRat
  | ceil =>
    refine ⟨⌈number.toRat⌉, ?_, by rw [onDecimal, toRat_ceil, places, pow_zero, div_one]⟩
    rw [places, pow_zero, mul_one]
    exact takes_ceil number.toRat

/-- By itself a rounding leaves the minus sign with every negative number that it takes to zero. -/
theorem isNegativeZero_onDecimal (rounding : Rounding) {number : Decimal}
    (negative : number.toRat < 0) (zero : (rounding.onDecimal number).toRat = 0) :
    (rounding.onDecimal number).isNegativeZero = true := by
  have signed : number.isSignNegative = true := by
    rw [isSignNegative, (isNegative_iff number).mpr negative, Bool.true_or]
  have empty := (mantissa_eq_zero_iff _).mpr zero
  cases rounding with
  | nearest tie places =>
    simp only [onDecimal, roundTo] at zero empty ⊢
    split
    next finer =>
      rw [dif_pos finer, mantissa_ofSigned] at empty
      rw [isNegativeZero_ofSigned, signed, empty]
      rfl
    -- A number that has no place too many is not rounded, and it was not zero.
    next coarse =>
      rw [dif_neg coarse] at zero
      exact absurd zero negative.ne
  | floor =>
    rw [onDecimal, Decimal.floor, mantissa_ofSigned] at empty
    rw [onDecimal, Decimal.floor, isNegativeZero_ofSigned, signed, empty]
    rfl
  | ceil =>
    rw [onDecimal, Decimal.ceil, mantissa_ofSigned] at empty
    rw [onDecimal, Decimal.ceil, isNegativeZero_ofSigned, signed, empty]
    rfl

theorem apply_eq_trim (rounding : Rounding) (number : Decimal) :
    rounding.apply number = (rounding.onDecimal (normalize number)).trim := by
  cases rounding <;> rfl

theorem gives_apply (rounding : Rounding) (number : Decimal) :
    rounding.Gives (normalize number).toRat (rounding.apply number).toRat := by
  rw [apply_eq_trim, toRat_trim]
  exact rounding.gives_onDecimal _

/-- A number beyond the limit of sixteen digits has no places to be rounded away. -/
theorem scale_eq_zero_of_large {number : Decimal} (large : digitLimit ≤ |number.toRat|) :
    number.scale = 0 := by
  by_contra placed
  have fits : |(number.mantissa : ℚ)| < 2 ^ 96 := by exact_mod_cast number.abs_mantissa_lt
  have tenth : (10 : ℚ) ≤ 10 ^ number.scale := le_self_pow₀ (by norm_num) placed
  rw [toRat_eq_div, abs_div, abs_pow, Nat.abs_ofNat, le_div_iff₀ (by positivity)] at large
  -- Ten times the limit is more than a mantissa can hold.
  have limit : digitLimit * 10 ≤ digitLimit * 10 ^ number.scale :=
    mul_le_mul_of_nonneg_left tenth (by norm_num [digitLimit])
  norm_num [digitLimit] at large limit fits
  linarith

/-- The results are normal forms. -/
theorem normalize_apply (rounding : Rounding) (number : Decimal) :
    normalize (rounding.apply number) = rounding.apply number := by
  have gives := rounding.gives_apply number
  have value : (normalize (rounding.apply number)).toRat = (rounding.apply number).toRat := by
    rcases lt_or_ge |(normalize number).toRat| digitLimit with below | large
    -- Below the limit the result has sixteen digits, and at the limit it is the normal form itself.
    · have digits := (hasDigits_normalize_iff number).mpr below
      exact (gives.hasDigits digits).toRat_normalize
    · have few := (scale_eq_zero_of_large large).trans_le (Nat.zero_le rounding.places)
      have same := gives.unique (gives_of_scale_le few)
      rw [normalize_eq_of_toRat_eq same, normalize_normalize, same]
  -- Both are trimmed, so their value is all there is to them.
  rw [normalize_eq_trim, toRat_trim] at value
  rw [apply_eq_trim, toRat_trim] at value
  rw [normalize_eq_trim, apply_eq_trim, trim_eq_trim_iff]
  exact value

/-- Rounding twice is rounding once. -/
theorem apply_apply (rounding : Rounding) (number : Decimal) :
    rounding.apply (rounding.apply number) = rounding.apply number := by
  -- A result is its own normal form and a multiple of the last place already.
  have again := rounding.gives_apply (rounding.apply number)
  rw [normalize_apply] at again
  have same := again.unique (rounding.gives_apply number).gives_self
  rw [← normalize_apply, normalize_eq_of_toRat_eq same, normalize_apply]

/-- Rounding a number finds what the rounding gives for its normal form, and nothing else. It is
monotone and idempotent, leaves no trailing zero behind the point, and every zero it leaves is the
plain one, without a sign. -/
theorem rounds_normal_form (rounding : Rounding) (number : Decimal) :
    (∀ result, rounding.Gives (normalize number).toRat result ↔
      result = (rounding.apply number).toRat) ∧
    (∀ other : Decimal, number.toRat ≤ other.toRat →
      (rounding.apply number).toRat ≤ (rounding.apply other).toRat) ∧
    rounding.apply (rounding.apply number) = rounding.apply number ∧
    ((rounding.apply number).scale = 0 ∨ (rounding.apply number).mantissa % 10 ≠ 0) ∧
    ((rounding.apply number).toRat = 0 → rounding.apply number = .zero) ∧
    (rounding.apply number).isNegativeZero = false := by
  have gives := rounding.gives_apply number
  refine ⟨fun result => ⟨fun other => other.unique gives, fun same => same ▸ gives⟩,
    fun other le => ?_, rounding.apply_apply number, ?_, fun zero => ?_, ?_⟩
  · exact gives.le (rounding.gives_apply other) (toRat_normalize_le le)
  · rw [apply_eq_trim]
    exact trim_trimmed _
  · rw [← normalize_apply]
    exact normalize_eq_zero zero
  · rw [apply_eq_trim]
    exact isNegativeZero_trim _

/-- A number becomes a tie when it is normalized, and a negative one is rounded up to zero, first
with its sign and then without it. -/
theorem rounds_normal_form_of_ties :
    let tie : Decimal := { mantissa := 12499999999999999999, scale := 20 }
    let half : Decimal := { mantissa := -5, scale := 1 }
    (nearest .away 2).apply tie = { mantissa := 13, scale := 2 } ∧
      (nearest .even 2).apply tie = { mantissa := 12, scale := 2 } ∧
      half.toRat ≤ tie.toRat ∧ (floor.apply half).toRat ≤ (floor.apply tie).toRat ∧
      (ceil.onDecimal half).isNegativeZero = true ∧
      (ceil.apply half).toRat = 0 ∧ ceil.apply half = .zero := by
  intro tie half
  have le : half.toRat ≤ tie.toRat := by decide +kernel
  have zero : (ceil.apply half).toRat = 0 := by decide +kernel
  exact ⟨by decide +kernel, by decide +kernel, le, (rounds_normal_form floor half).2.1 tie le,
    ceil.isNegativeZero_onDecimal (by decide +kernel) (by decide +kernel), zero,
    (rounds_normal_form ceil half).2.2.2.2.1 zero⟩

end Rounding

end Rulebook

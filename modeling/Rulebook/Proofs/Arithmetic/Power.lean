import Mathlib.Analysis.SpecialFunctions.Pow.Real
import Rulebook.Arithmetic.Power
import Rulebook.Proofs.Arithmetic.NormalForm
import Rulebook.Proofs.Arithmetic.Precision
import Rulebook.Proofs.Decimal.Closeness

/-!
# How powers end

Each failure of a power has a cause in the normal forms of its operands and in what the library
finds for them, and where no cause is present a power is found. What the library documents bounds
these causes by exact powers. They are wider than the failures read on paper: the power that one is
divided by can be out of range although its reciprocal is not, it can vanish before, and a
fractional power can be too large for the way it is computed although its result would not be.
-/
namespace Rulebook

open Decimal

/-- The number is an integer beyond 64 bits. -/
def IsHuge (exponent : Decimal) : Prop :=
  ∃ whole : ℤ, exponent.toRat = whole ∧ (whole < -2 ^ 63 ∨ 2 ^ 63 ≤ whole)

/-- The number is no integer. -/
def IsFractional (exponent : Decimal) : Prop :=
  ∀ whole : ℤ, exponent.toRat ≠ whole

/-- The factors by which computed powers exceed exact ones at most. Powers that are multiplied out
without rounding have the factor one. -/
structure PowerAccuracy where
  whole : ℝ
  fractional : ℝ

namespace PowerLibrary

/-- What a library documents of its powers. Whole powers are multiplied out: none is missing but
where the exact one, up to the accuracy of the products, exceeds the largest decimal, and none
vanishes but where the exact one is less than a unit of the last place. A fractional power is the
exponential of a multiple of the logarithm, and the exponential of a negative number is computed as
a reciprocal: none is missing but where the exact power or its reciprocal, up to the accuracy of the
approximation, exceeds the largest decimal. -/
structure Documented (powers : PowerLibrary) (accuracy : PowerAccuracy) : Prop where
  large_of_whole : ∀ {base : Decimal} {count : ℕ}, powers.whole? base count = none →
    2 ^ 96 - 1 < accuracy.whole * |(base.toRat : ℝ)| ^ count
  zero_of_whole : ∀ {base : Decimal} {count : ℕ} {power : Decimal},
    powers.whole? base count = some power → base.toRat ^ count = 0 → power.toRat = 0
  small_of_whole : ∀ {base : Decimal} {count : ℕ} {power : Decimal},
    powers.whole? base count = some power → power.toRat = 0 → |base.toRat| ^ count < unit
  large_of_fractional : ∀ {base exponent : Decimal},
    0 < base.toRat ∨ base.toRat = 0 ∧ 0 < exponent.toRat →
    powers.fractional? base exponent = none →
    2 ^ 96 - 1 < accuracy.fractional * (base.toRat : ℝ) ^ (exponent.toRat : ℝ) ∨
      2 ^ 96 - 1 < accuracy.fractional * (base.toRat : ℝ) ^ (-exponent.toRat : ℝ)

/-- The library is asked for the power of a base and has none. -/
inductive Misses (powers : PowerLibrary) (base exponent : Decimal) : Prop where
  | whole (whole : ℤ) (value : exponent.toRat = whole) (few : ¬IsHuge exponent)
    (missing : powers.whole? base whole.natAbs = none)
  | fractional (isFractional : IsFractional exponent) (nonneg : 0 ≤ base.toRat)
    (missing : powers.fractional? base exponent = none)

/-- One is to be divided by the power of a base, and the library finds zero for it. -/
structure Vanishes (powers : PowerLibrary) (base exponent : Decimal) : Prop where
  negative : exponent.toRat < 0
  few : ¬IsHuge exponent
  zero : ∃ whole : ℤ, exponent.toRat = whole ∧
    ∃ power, powers.whole? base whole.natAbs = some power ∧ power.toRat = 0

end PowerLibrary

namespace Arithmetic

open PowerLibrary

variable {powers : PowerLibrary} {base exponent : Decimal}

theorem isFractional_iff (exponent : Decimal) :
    IsFractional exponent ↔ exponent.toInteger? = none := by
  rw [Option.eq_none_iff_forall_ne_some]
  exact forall_congr' fun whole => not_congr (toInteger?_eq_some_iff_toRat exponent whole).symm

theorem isHuge_iff {whole : ℤ} (value : exponent.toRat = whole) :
    IsHuge exponent ↔ ¬isExponent whole := by
  rw [isExponent, decide_eq_true_iff]
  constructor
  · rintro ⟨whole', value', outside⟩
    -- The value is one integer only.
    have same : whole = whole' := by exact_mod_cast value.symm.trans value'
    omega
  · intro outside
    exact ⟨whole, value, by omega⟩

/-- Only the reciprocal of zero is out of range. -/
theorem divide_one_range (magnitude : Decimal) :
    magnitude.toRat = 0 ∧ divide one magnitude = .error .divisionByZero ∨
      magnitude.toRat ≠ 0 ∧ ∃ power, divide one magnitude = .ok power := by
  have normal : normalize one = one := by decide +kernel
  by_cases zero : magnitude.toRat = 0
  · refine .inl ⟨zero, ?_⟩
    rw [divide, normalize_eq_zero zero]
    rfl
  · have nonzero := toRat_normalize_ne_zero zero
    have divisor := mt (mantissa_eq_zero_iff _).mp nonzero
    -- The reciprocal of a unit of the last place is a power of ten in range.
    have small : |one.toRat / (normalize magnitude).toRat| ≤ 10 ^ 28 := by
      have least := unit_le_abs_toRat nonzero
      rw [toRat_one, abs_div, abs_one, div_le_iff₀ (abs_pos.mpr nonzero)]
      rw [unit] at least
      linarith
    obtain ⟨power, divided, -⟩ := (divide?_isTaken one divisor).exists_represents (by linarith)
    refine .inr ⟨zero, normalize power, ?_⟩
    rw [divide_eq_settle divisor, normal, divided]
    rfl

/-! ### One equation for each branch -/

/-- An exponent beyond 64 bits is not looked at further. -/
theorem power_of_huge (huge : IsHuge (normalize exponent)) :
    power powers base exponent = .error (.overflow .power) := by
  obtain ⟨whole, value, -⟩ := id huge
  have outside := (isHuge_iff value).mp huge
  simp only [power, (toInteger?_eq_some_iff_toRat _ _).mpr value, if_neg outside]

section Whole

variable {whole : ℤ} (value : (normalize exponent).toRat = whole)
  (few : ¬IsHuge (normalize exponent))
include value few

/-- A whole power that the library misses is an overflow. -/
theorem power_of_missing (missing : powers.whole? (normalize base) whole.natAbs = none) :
    power powers base exponent = .error (.overflow .power) := by
  have inside : isExponent whole := not_not.mp (mt (isHuge_iff value).mpr few)
  simp only [power, (toInteger?_eq_some_iff_toRat _ _).mpr value, if_pos inside, missing]

/-- A whole power that the library finds is the result or what one is divided by. -/
theorem power_of_found {magnitude : Decimal}
    (found : powers.whole? (normalize base) whole.natAbs = some magnitude) :
    power powers base exponent =
      if whole < 0 then divide one magnitude else .ok (normalize magnitude) := by
  have inside : isExponent whole := not_not.mp (mt (isHuge_iff value).mpr few)
  simp only [power, (toInteger?_eq_some_iff_toRat _ _).mpr value, if_pos inside, found]

end Whole

theorem power_of_fractional (fractional : IsFractional (normalize exponent)) :
    power powers base exponent = if (normalize base).isNegative
      then .error (.invalidPower (normalize base) (normalize exponent))
      else settle .power (powers.fractional? (normalize base) (normalize exponent)) := by
  simp only [power, (isFractional_iff _).mp fractional]

/-! ### Failures and their causes -/

/-- There is no fractional power of a negative base. -/
theorem power_of_negative (negative : (normalize base).toRat < 0)
    (fractional : IsFractional (normalize exponent)) :
    power powers base exponent =
      .error (.invalidPower (normalize base) (normalize exponent)) := by
  rw [power_of_fractional fractional, if_pos ((isNegative_iff _).mpr negative)]

theorem power_of_misses (misses : powers.Misses (normalize base) (normalize exponent)) :
    power powers base exponent = .error (.overflow .power) := by
  cases misses with
  | whole whole value few missing => exact power_of_missing value few missing
  | fractional fractional nonneg missing =>
    rw [power_of_fractional fractional, if_neg (mt (isNegative_iff _).mp nonneg.not_gt), missing]
    rfl

theorem power_of_vanishes (vanishes : powers.Vanishes (normalize base) (normalize exponent)) :
    power powers base exponent = .error .divisionByZero := by
  obtain ⟨negative, few, whole, value, magnitude, found, zero⟩ := vanishes
  have below : whole < 0 := by
    rw [value] at negative
    exact_mod_cast negative
  rw [power_of_found value few found, if_pos below]
  rcases divide_one_range magnitude with ⟨-, divided⟩ | ⟨nonzero, -⟩
  · exact divided
  · exact absurd zero nonzero

/-- Without a cause of failure, a power is found. -/
theorem exists_power (few : ¬IsHuge (normalize exponent))
    (valid : ¬((normalize base).toRat < 0 ∧ IsFractional (normalize exponent)))
    (finds : ¬powers.Misses (normalize base) (normalize exponent))
    (keeps : ¬powers.Vanishes (normalize base) (normalize exponent)) :
    ∃ result, power powers base exponent = .ok result := by
  by_cases fractional : IsFractional (normalize exponent)
  · have nonneg : 0 ≤ (normalize base).toRat :=
      not_lt.mp fun negative => valid ⟨negative, fractional⟩
    rw [power_of_fractional fractional, if_neg (mt (isNegative_iff _).mp nonneg.not_gt)]
    cases found : powers.fractional? (normalize base) (normalize exponent) with
    | none => exact absurd (.fractional fractional nonneg found) finds
    | some magnitude => exact ⟨_, rfl⟩
  · obtain ⟨whole, value⟩ := not_forall_not.mp fractional
    cases found : powers.whole? (normalize base) whole.natAbs with
    | none => exact absurd (.whole whole value few found) finds
    | some magnitude =>
      rw [power_of_found value few found]
      split
      next negative =>
        -- One is divided by the power found, which the library has kept from zero.
        rcases divide_one_range magnitude with ⟨zero, -⟩ | ⟨-, divided⟩
        · have below : (normalize exponent).toRat < 0 := by
            rw [value]
            exact_mod_cast negative
          exact absurd ⟨below, few, whole, value, magnitude, found, zero⟩ keeps
        · exact divided
      next => exact ⟨_, rfl⟩

/-! ### Causes in terms of exact powers -/

/-- What is computed on the way to a power is too large: the exact power with the magnitude of a
whole exponent; the one with a fractional exponent or its reciprocal; each up to its accuracy. -/
inductive IsLarge (accuracy : PowerAccuracy) (base exponent : Decimal) : Prop where
  | whole (count : ℕ) (magnitude : |exponent.toRat| = count)
    (beyond : 2 ^ 96 - 1 < accuracy.whole * |(base.toRat : ℝ)| ^ count)
  | fractional (isFractional : IsFractional exponent) (nonneg : 0 ≤ base.toRat)
    (beyond : 2 ^ 96 - 1 < accuracy.fractional * (base.toRat : ℝ) ^ (exponent.toRat : ℝ) ∨
      2 ^ 96 - 1 < accuracy.fractional * (base.toRat : ℝ) ^ (-exponent.toRat : ℝ))

section Documented

variable {accuracy : PowerAccuracy} (documented : powers.Documented accuracy)
include documented

/-- Fractional powers of zero with a negative exponent are not documented. -/
theorem isLarge_of_misses (misses : powers.Misses base exponent) :
    IsLarge accuracy base exponent ∨ base.toRat = 0 ∧ exponent.toRat < 0 := by
  cases misses with
  | whole whole value _ missing =>
    refine .inl (.whole whole.natAbs ?_ (documented.large_of_whole missing))
    rw [value, Nat.cast_natAbs, Int.cast_abs]
  | fractional fractional nonneg missing =>
    rcases nonneg.eq_or_lt with zero | positive
    · rcases lt_trichotomy exponent.toRat 0 with negative | none | above
      · exact .inr ⟨zero.symm, negative⟩
      · exact absurd (none.trans Int.cast_zero.symm) (fractional 0)
      · exact .inl (.fractional fractional nonneg
          (documented.large_of_fractional (.inr ⟨zero.symm, above⟩) missing))
    · exact .inl (.fractional fractional nonneg
        (documented.large_of_fractional (.inl positive) missing))

theorem small_of_vanishes (vanishes : powers.Vanishes base exponent) :
    ∃ count : ℕ, exponent.toRat = -count ∧ |base.toRat| ^ count < unit := by
  obtain ⟨negative, -, whole, value, power, found, zero⟩ := vanishes
  refine ⟨whole.natAbs, ?_, documented.small_of_whole found zero⟩
  have below : whole < 0 := by
    rw [value] at negative
    exact_mod_cast negative
  rw [value, Nat.cast_natAbs, Int.cast_abs, abs_of_neg (by exact_mod_cast below), neg_neg]

/-- Powers of zero are neither missing nor anything but zero. -/
theorem vanishes_of_zero (zero : base.toRat = 0) {count : ℕ} (positive : 0 < count)
    (few : count ≤ 2 ^ 63) (value : exponent.toRat = -count) : powers.Vanishes base exponent := by
  have whole : exponent.toRat = (-count : ℤ) := by
    rw [value]
    push_cast
    rfl
  refine ⟨by rw [value]; exact neg_neg_of_pos (by exact_mod_cast positive), ?few, -count, whole, ?_⟩
  case few =>
    rintro ⟨other, value', outside⟩
    have same : (-count : ℤ) = other := by exact_mod_cast whole.symm.trans value'
    omega
  have unsigned : (-count : ℤ).natAbs = count := by omega
  rw [unsigned]
  cases found : powers.whole? base count with
  | none =>
    -- A missing power would have to be large, and zero is not.
    have large := documented.large_of_whole found
    rw [zero, Rat.cast_zero, abs_zero, zero_pow positive.ne', mul_zero] at large
    norm_num at large
  | some power =>
    exact ⟨power, rfl, documented.zero_of_whole found (by rw [zero, zero_pow positive.ne'])⟩

end Documented

/-- How a power of a base with an exponent, both in normal form, ends: its failures by what the
library finds, and what this means for the exact powers. -/
structure PowerOutcome (powers : PowerLibrary) (accuracy : PowerAccuracy) (base exponent : Decimal)
    (outcome : Except ArithmeticError Decimal) : Prop where
  failures : ∀ failure, outcome = .error failure →
    failure = .divisionByZero ∨ failure = .invalidPower base exponent ∨ failure = .overflow .power
  invalidPower_iff : outcome = .error (.invalidPower base exponent) ↔
    base.toRat < 0 ∧ IsFractional exponent
  overflow_iff : outcome = .error (.overflow .power) ↔
    IsHuge exponent ∨ powers.Misses base exponent
  large_of_overflow : outcome = .error (.overflow .power) →
    IsHuge exponent ∨ IsLarge accuracy base exponent ∨ base.toRat = 0 ∧ exponent.toRat < 0
  divisionByZero_iff : outcome = .error .divisionByZero ↔ powers.Vanishes base exponent
  divisionByZero_of_zero : ∀ count : ℕ, 0 < count → count ≤ 2 ^ 63 → exponent.toRat = -count →
    base.toRat = 0 → outcome = .error .divisionByZero
  /-- A base that is not zero can have a power with less than one unit of the 28th place. -/
  small_of_divisionByZero : outcome = .error .divisionByZero →
    ∃ count : ℕ, exponent.toRat = -count ∧ |base.toRat| ^ count < unit

/-- Where none of the failures has its cause in an exact power, a power is found. -/
theorem PowerOutcome.exists_ok {accuracy : PowerAccuracy} {outcome : Except ArithmeticError Decimal}
    (ends : PowerOutcome powers accuracy base exponent outcome)
    (valid : base.toRat < 0 → ¬IsFractional exponent) (few : ¬IsHuge exponent)
    (fits : ¬IsLarge accuracy base exponent) (nonzero : base.toRat = 0 → 0 ≤ exponent.toRat)
    (kept : ∀ count : ℕ, exponent.toRat = -count → unit ≤ |base.toRat| ^ count) :
    ∃ power, outcome = .ok power := by
  cases outcome with
  | ok power => exact ⟨power, rfl⟩
  | error failure =>
    exfalso
    rcases ends.failures failure rfl with rfl | rfl | rfl
    · obtain ⟨count, value, small⟩ := ends.small_of_divisionByZero rfl
      exact (kept count value).not_gt small
    · obtain ⟨negative, fractional⟩ := ends.invalidPower_iff.mp rfl
      exact valid negative fractional
    · rcases ends.large_of_overflow rfl with huge | large | ⟨zero, negative⟩
      · exact few huge
      · exact fits large
      · exact (nonzero zero).not_gt negative

/-- A power ends with one of its failures, and then the cause of that failure is present, or it is
found. -/
theorem power_cases (powers : PowerLibrary) (base exponent : Decimal) :
    (power powers base exponent = .error (.overflow .power) ∧
      (IsHuge (normalize exponent) ∨ powers.Misses (normalize base) (normalize exponent))) ∨
    (power powers base exponent = .error (.invalidPower (normalize base) (normalize exponent)) ∧
      (normalize base).toRat < 0 ∧ IsFractional (normalize exponent)) ∨
    (power powers base exponent = .error .divisionByZero ∧
      powers.Vanishes (normalize base) (normalize exponent)) ∨
    ∃ result, power powers base exponent = .ok result := by
  by_cases huge : IsHuge (normalize exponent)
  · exact .inl ⟨power_of_huge huge, .inl huge⟩
  by_cases misses : powers.Misses (normalize base) (normalize exponent)
  · exact .inl ⟨power_of_misses misses, .inr misses⟩
  by_cases invalid : (normalize base).toRat < 0 ∧ IsFractional (normalize exponent)
  · exact .inr (.inl ⟨power_of_negative invalid.1 invalid.2, invalid⟩)
  by_cases vanishes : powers.Vanishes (normalize base) (normalize exponent)
  · exact .inr (.inr (.inl ⟨power_of_vanishes vanishes, vanishes⟩))
  · exact .inr (.inr (.inr (exists_power huge invalid misses vanishes)))

theorem overflow_iff : power powers base exponent = .error (.overflow .power) ↔
    IsHuge (normalize exponent) ∨ powers.Misses (normalize base) (normalize exponent) := by
  constructor
  · intro overflow
    rcases power_cases powers base exponent with ⟨-, cause⟩ | ⟨ends, -⟩ | ⟨ends, -⟩ | ⟨_, ends⟩
    · exact cause
    all_goals cases ends.symm.trans overflow
  · exact Or.rec power_of_huge power_of_misses

theorem divisionByZero_iff : power powers base exponent = .error .divisionByZero ↔
    powers.Vanishes (normalize base) (normalize exponent) := by
  refine ⟨fun divided => ?_, power_of_vanishes⟩
  rcases power_cases powers base exponent with ⟨ends, -⟩ | ⟨ends, -⟩ | ⟨-, cause⟩ | ⟨_, ends⟩
  · cases ends.symm.trans divided
  · cases ends.symm.trans divided
  · exact cause
  · cases ends.symm.trans divided

/-- The exact power with a whole exponent, rounded into the decimals. -/
def exactWhole? (base : Decimal) (count : ℕ) : Option Decimal :=
  nearest? (base.mantissa ^ count) (powerOfTen (base.scale * count))

/-- Exact powers rounded into the decimals; those with a fractional exponent are cut behind the 28th
place first. -/
noncomputable def exactPowers : PowerLibrary where
  whole? := exactWhole?
  fractional? base exponent :=
    nearest? ⌊(base.toRat : ℝ) ^ (exponent.toRat : ℝ) * 10 ^ 28⌋ (powerOfTen 28)

theorem exactWhole?_isTaken (base : Decimal) (count : ℕ) :
    IsTaken (base.toRat ^ count) (exactWhole? base count) := by
  have power : base.toRat ^ count =
      (base.mantissa ^ count : ℤ) / (powerOfTen (base.scale * count) : ℕ) := by
    rw [toRat_eq_div, div_pow, ← pow_mul, cast_powerOfTen, Int.cast_pow]
  rw [power]
  exact nearest?_isTaken _ (powerOfTen_pos _)

theorem exactPowers_documented : exactPowers.Documented ⟨1, 1⟩ where
  large_of_whole {base count} missing := by
    have large := (exactWhole?_isTaken base count).missing.mp missing
    rw [abs_pow] at large
    have large : 2 ^ 96 - 1 < |base.toRat| ^ count := by linarith
    rw [one_mul]
    exact_mod_cast large
  zero_of_whole {base count power} found zero := by
    have represents := (exactWhole?_isTaken base count).represents found
    rw [zero] at represents
    exact represents.toRat_eq_zero
  small_of_whole {base count power} found zero := by
    by_contra! large
    rw [← abs_pow] at large
    exact ((exactWhole?_isTaken base count).represents found).toRat_ne_zero large zero
  large_of_fractional {base exponent} nonneg missing := by
    left
    have base_nonneg : (0 : ℝ) ≤ base.toRat := by
      exact_mod_cast nonneg.elim le_of_lt fun zero => zero.1.ge
    have power_nonneg := Real.rpow_nonneg base_nonneg (exponent.toRat : ℝ)
    obtain ⟨units, cut⟩ : ∃ units, units = ⌊(base.toRat : ℝ) ^ (exponent.toRat : ℝ) * 10 ^ 28⌋ :=
      ⟨_, rfl⟩
    have nonneg_units : 0 ≤ units := cut ▸ Int.floor_nonneg.mpr (by positivity)
    -- Cutting makes the power no larger, so what is too large after it was so before.
    have below : (units : ℝ) ≤ (base.toRat : ℝ) ^ (exponent.toRat : ℝ) * 10 ^ 28 :=
      cut ▸ Int.floor_le _
    have large := (nearest?_isTaken units (powerOfTen_pos 28)).missing.mp (cut ▸ missing)
    rw [cast_powerOfTen, abs_of_nonneg (by positivity), div_add' _ _ _ (by norm_num),
      le_div_iff₀ (by norm_num)] at large
    have large : 2 ^ 97 * 10 ^ 28 ≤ 2 * units + 10 ^ 28 := by
      have doubled : (2 ^ 97 * 10 ^ 28 : ℚ) ≤ 2 * units + 10 ^ 28 := by linarith
      exact_mod_cast doubled
    have large : (2 ^ 97 * 10 ^ 28 : ℝ) ≤ 2 * units + 10 ^ 28 := by exact_mod_cast large
    linarith

/-- The exact power of the normal forms, in magnitude. -/
noncomputable def exactPower (base exponent : Decimal) : ℝ :=
  |((normalize base).toRat : ℝ)| ^ ((normalize exponent).toRat : ℝ)

/-- The power is reported as too large although the exact one is in the range of decimals. -/
def OverflowsInRange (powers : PowerLibrary) (base exponent : Decimal) : Prop :=
  power powers base exponent = .error (.overflow .power) ∧ exactPower base exponent ≤ 2 ^ 96 - 1

theorem exactPower_eq {base exponent : Decimal} {magnitude power : ℚ}
    (base_eq : |(normalize base).toRat| = magnitude)
    (exponent_eq : (normalize exponent).toRat = power) :
    exactPower base exponent = (magnitude : ℝ) ^ (power : ℝ) := by
  rw [exactPower, exponent_eq, ← base_eq, Rat.cast_abs]

/-- Exact whole powers; of the powers with a fractional exponent only those of zero, which are zero.
That one close to the largest decimal and one with a huge reciprocal are missing is how the powers
below are found out through the logarithm. -/
def powersOfZero : PowerLibrary where
  whole? := exactWhole?
  fractional? base _ := if base.isZero then some zero else none

end Arithmetic

end Rulebook

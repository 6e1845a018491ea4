import Mathlib.Data.Rat.Lemmas
import Rulebook.Decimal.Checked
import Rulebook.Proofs.Decimal.Nearest

/-!
# Exact values taken into the decimals

A decimal represents an exact rational value if it is nearest to it at its own places and either
equals it, has all 28 places, or would not fit at one place more. The checked operations represent
the exact sum, difference, product and quotient of their operands in this sense, with ties to even,
and find nothing exactly if the value lies at or beyond one half below the first mantissa that does
not fit.
-/
namespace Rulebook.Decimal

theorem cast_powerOfTen (places : ℕ) : ((powerOfTen places : ℕ) : ℚ) = 10 ^ places := by
  simp [powerOfTen]

theorem toRat_eq_div (number : Decimal) :
    number.toRat = number.mantissa / (10 : ℚ) ^ number.scale := by
  rw [toRat, Rat.mkRat_eq_div, cast_powerOfTen]

theorem toRat_mul_pow (number : Decimal) :
    number.toRat * (10 : ℚ) ^ number.scale = number.mantissa := by
  rw [toRat_eq_div]
  field_simp

theorem mantissa_eq_zero_iff (number : Decimal) : number.mantissa = 0 ↔ number.toRat = 0 := by
  rw [toRat_eq_div, div_eq_zero_iff, Int.cast_eq_zero]
  exact (or_iff_left (by positivity)).symm

theorem isZero_iff (number : Decimal) : number.isZero = true ↔ number.toRat = 0 := by
  rw [isZero, beq_iff_eq, mantissa_eq_zero_iff]

theorem isNegative_iff (number : Decimal) : number.isNegative = true ↔ number.toRat < 0 := by
  rw [isNegative, decide_eq_true_iff, toRat_eq_div, div_lt_iff₀ (by positivity), zero_mul,
    Int.cast_lt_zero]

theorem abs_mantissa_lt (number : Decimal) : |number.mantissa| < 2 ^ 96 := by
  rw [Int.abs_eq_natAbs]
  exact_mod_cast number.mantissa_lt

theorem abs_toRat_lt (number : Decimal) : |number.toRat| < 2 ^ 96 := by
  have mantissa : |(number.mantissa : ℚ)| < 2 ^ 96 := by exact_mod_cast number.abs_mantissa_lt
  have step : (1 : ℚ) ≤ 10 ^ number.scale := one_le_pow₀ (by norm_num)
  rw [toRat_eq_div, abs_div, abs_pow, Nat.abs_ofNat]
  exact (div_le_self (abs_nonneg _) step).trans_lt mantissa

/-- What is made of a mantissa and a scale has these and no sign on zero. -/
theorem ofParts?_eq_some_iff {mantissa : ℤ} {scale : ℕ} {number : Decimal} :
    ofParts? mantissa scale = some number ↔
      number.mantissa = mantissa ∧ number.scale = scale ∧ number.isNegativeZero = false := by
  constructor
  · intro made
    unfold ofParts? at made
    split at made
    · split at made
      · cases made
        exact ⟨rfl, rfl, rfl⟩
      · cases made
    · cases made
  · rintro ⟨rfl, rfl, plain⟩
    rw [ofParts?, dif_pos number.mantissa_lt, dif_pos number.scale_le, Option.some.injEq]
    exact Decimal.ext rfl rfl plain.symm

/-- Only the mantissa can be without room. -/
theorem ofParts?_eq_none_iff {mantissa : ℤ} {scale : ℕ} (within : scale ≤ 28) :
    ofParts? mantissa scale = none ↔ 2 ^ 96 ≤ |mantissa| := by
  rw [Int.abs_eq_natAbs]
  unfold ofParts?
  split
  · next fits =>
    simp only [reduceCtorEq, false_iff]
    omega
  · next unfit =>
    simp only [true_iff]
    omega

theorem isNegativeZero_eq_false {number : Decimal} (nonzero : number.mantissa ≠ 0) :
    number.isNegativeZero = false :=
  Bool.eq_false_iff.mpr (mt number.mantissa_eq_zero nonzero)

/-- The sign of a zero comes back as well. -/
theorem negate_negate (number : Decimal) : number.negate.negate = number := by
  refine Decimal.ext (neg_neg number.mantissa) rfl ?_
  by_cases zero : number.mantissa = 0
  · simp [negate, ofSigned, isSignNegative, isNegative, zero]
  · simp [negate, ofSigned, isNegativeZero_eq_false zero, zero]

theorem toRat_negate (number : Decimal) : number.negate.toRat = -number.toRat := by
  rw [toRat_eq_div, toRat_eq_div, ← neg_div, ← Int.cast_neg]
  rfl

/-- The number is nearest to the exact value at its places, and it has as many places as it has
room for unless it equals the value with fewer. -/
structure Represents (tie : Tie) (precise : ℚ) (number : Decimal) : Prop where
  nearest : IsNearest tie (precise * 10 ^ number.scale) number.mantissa
  finest : number.toRat = precise ∨ number.scale = 28 ∨
    2 ^ 96 ≤ |precise| * 10 ^ (number.scale + 1) + 1 / 2

namespace Represents

variable {tie : Tie} {precise : ℚ} {number : Decimal}

/-- A decimal represents its own value. -/
theorem of_eq (value : number.toRat = precise) : Represents tie precise number := by
  refine ⟨?_, .inl value⟩
  rw [← value, toRat_mul_pow]
  exact .intCast _

/-- Negation mirrors what represents a value. -/
theorem neg (represents : Represents tie precise number) :
    Represents tie (-precise) number.negate := by
  constructor
  · have negated := represents.nearest.neg
    rwa [← neg_mul] at negated
  · rw [abs_neg]
    refine represents.finest.imp_left fun value => ?_
    rw [toRat_negate, value]

end Represents

section Nearest

variable {numerator : ℤ} {denominator : ℕ}

/-- The rounding of a rational at some places is nearest to it at these places. -/
theorem isNearest_atPlaces (numerator : ℤ) (positive : 0 < denominator) (places : ℕ) :
    IsNearest .even ((numerator : ℚ) / denominator * 10 ^ places)
      (roundRatio .even (numerator * powerOfTen places) denominator) := by
  have nearest := roundRatio_isNearest .even (numerator * powerOfTen places) positive
  rw [Int.cast_mul, Int.cast_natCast, cast_powerOfTen] at nearest
  rwa [div_mul_eq_mul_div]

/-- What does not fit at some places is at least one half below the first mantissa without room. -/
theorem unfit_iff (numerator : ℤ) (positive : 0 < denominator) (places : ℕ) :
    2 ^ 96 ≤ |roundRatio .even (numerator * powerOfTen places) denominator| ↔
      2 ^ 96 ≤ |(numerator : ℚ) / denominator| * 10 ^ places + 1 / 2 := by
  rw [(isNearest_atPlaces numerator positive places).le_abs_iff (by decide), abs_mul, abs_pow,
    Nat.abs_ofNat]
  norm_num

theorem nearestWithin?_zero (numerator : ℤ) (denominator : ℕ) :
    nearestWithin? numerator denominator 0 =
      ofParts? (roundRatio .even (numerator * powerOfTen 0) denominator) 0 := by
  rw [nearestWithin?, powerOfTen_zero, Int.natCast_one, Int.mul_one]

/-- What is found is nearest at its places, and it has all places or no room for another. -/
theorem nearestWithin?_eq_some {places : ℕ} (within : places ≤ 28) (positive : 0 < denominator)
    {number : Decimal} (found : nearestWithin? numerator denominator places = some number) :
    IsNearest .even ((numerator : ℚ) / denominator * 10 ^ number.scale) number.mantissa ∧
      (number.scale = places ∨
        2 ^ 96 ≤ |(numerator : ℚ) / denominator| * 10 ^ (number.scale + 1) + 1 / 2) := by
  induction places with
  | zero =>
    rw [nearestWithin?_zero, ofParts?_eq_some_iff] at found
    rw [found.1, found.2.1]
    exact ⟨isNearest_atPlaces numerator positive 0, .inl rfl⟩
  | succ places ih =>
    rw [nearestWithin?] at found
    split at found
    · next made =>
      cases found
      rw [ofParts?_eq_some_iff] at made
      rw [made.1, made.2.1]
      exact ⟨isNearest_atPlaces numerator positive (places + 1), .inl rfl⟩
    · next unfit =>
      rw [ofParts?_eq_none_iff within, unfit_iff numerator positive] at unfit
      -- coarse⟩ | What does not fit with one place more is what the step before has tried.
      obtain ⟨nearest, scale | coarse⟩ := ih (by omega) found
      · exact ⟨nearest, .inr (scale ▸ unfit)⟩
      · exact ⟨nearest, .inr coarse⟩

/-- Nothing is found exactly if the integer part is without room. -/
theorem nearestWithin?_eq_none_iff {places : ℕ} (within : places ≤ 28)
    (positive : 0 < denominator) :
    nearestWithin? numerator denominator places = none ↔
      2 ^ 96 ≤ |(numerator : ℚ) / denominator| + 1 / 2 := by
  induction places with
  | zero =>
    rw [nearestWithin?_zero, ofParts?_eq_none_iff within, unfit_iff numerator positive, pow_zero,
      mul_one]
  | succ places ih =>
    have further := ih (by omega)
    rw [nearestWithin?]
    constructor
    · intro missing
      split at missing
      · cases missing
      · exact further.mp missing
    · intro large
      -- More places only make the mantissa larger.
      have larger : 2 ^ 96 ≤
          |(numerator : ℚ) / denominator| * 10 ^ (places + 1) + 1 / 2 := by
        have grows : (1 : ℚ) ≤ 10 ^ (places + 1) := one_le_pow₀ (by norm_num)
        nlinarith [abs_nonneg ((numerator : ℚ) / denominator)]
      rw [← unfit_iff numerator positive, ← ofParts?_eq_none_iff within] at larger
      rw [larger]
      exact further.mpr large

theorem represents_of_nearest? (positive : 0 < denominator) {number : Decimal}
    (found : nearest? numerator denominator = some number) :
    Represents .even ((numerator : ℚ) / denominator) number := by
  obtain ⟨nearest, finest⟩ := nearestWithin?_eq_some (Nat.le_refl 28) positive found
  exact ⟨nearest, .inr finest⟩

theorem nearest?_eq_none_iff (positive : 0 < denominator) :
    nearest? numerator denominator = none ↔
      2 ^ 96 ≤ |(numerator : ℚ) / denominator| + 1 / 2 :=
  nearestWithin?_eq_none_iff (Nat.le_refl 28) positive

end Nearest

/-! ### Quotients of integers -/

/-- The integer part of a rational, toward zero. -/
def truncate (value : ℚ) : ℤ :=
  value.num.tdiv value.den

theorem tdiv_mul_mul_right (numerator denominator : ℤ) {factor : ℤ} (nonzero : factor ≠ 0) :
    (numerator * factor).tdiv (denominator * factor) = numerator.tdiv denominator := by
  rcases lt_or_gt_of_ne nonzero with negative | positive
  · rw [← Int.neg_tdiv_neg, ← mul_neg, ← mul_neg]
    exact Int.mul_tdiv_mul_of_pos_left _ _ (by omega)
  · exact Int.mul_tdiv_mul_of_pos_left _ _ positive

theorem truncate_div (numerator denominator : ℤ) :
    truncate ((numerator : ℚ) / denominator) = numerator.tdiv denominator := by
  rcases eq_or_ne denominator 0 with rfl | nonzero
  · simp [truncate]
  · let quotient : ℚ := numerator / denominator
    have reduced : (quotient.den : ℤ) ≠ 0 := by exact_mod_cast quotient.den_ne_zero
    -- A fraction and its reduced form multiply out to the same.
    have crossed : quotient.num * denominator = numerator * quotient.den := by
      have fraction : (quotient.num : ℚ) / quotient.den = numerator / denominator :=
        quotient.num_div_den
      rw [div_eq_div_iff (by exact_mod_cast reduced) (by exact_mod_cast nonzero)] at fraction
      exact_mod_cast fraction
    calc truncate quotient
        = (quotient.num * denominator).tdiv (quotient.den * denominator) :=
          (tdiv_mul_mul_right _ _ nonzero).symm
      _ = (numerator * quotient.den).tdiv (denominator * quotient.den) := by
          rw [crossed, mul_comm denominator]
      _ = numerator.tdiv denominator := tdiv_mul_mul_right _ _ reduced

/-- The sign of a divisor can stand in the numerator. -/
theorem signed_div_natAbs (numerator : ℤ) {denominator : ℤ} (nonzero : denominator ≠ 0) :
    (numerator * denominator.sign : ℤ) / (denominator.natAbs : ℚ) =
      (numerator : ℚ) / denominator := by
  have magnitude : (denominator.natAbs : ℚ) ≠ 0 := by
    exact_mod_cast Int.natAbs_ne_zero.mpr nonzero
  rw [div_eq_div_iff magnitude (by exact_mod_cast nonzero), Nat.cast_natAbs,
    ← Int.sign_mul_self_eq_abs]
  push_cast
  ring

/-! ### Checked operations -/

/-- The number taken for an exact value represents it, and there is none exactly if the value is
too large. -/
structure IsTaken (precise : ℚ) (taken : Option Decimal) : Prop where
  represents : ∀ {number}, taken = some number → Represents .even precise number
  missing : taken = none ↔ 2 ^ 96 ≤ |precise| + 1 / 2

theorem nearest?_isTaken (numerator : ℤ) {denominator : ℕ} (positive : 0 < denominator) :
    IsTaken (numerator / denominator) (nearest? numerator denominator) :=
  ⟨represents_of_nearest? positive, nearest?_eq_none_iff positive⟩

section Operations

variable (left right : Decimal)

theorem toRat_eq_align_fst :
    left.toRat = (left.mantissa * powerOfTen right.scale : ℤ) /
      (powerOfTen (left.scale + right.scale) : ℕ) := by
  rw [toRat_eq_div]
  push_cast
  rw [cast_powerOfTen, cast_powerOfTen, pow_add]
  field_simp

theorem toRat_eq_align_snd :
    right.toRat = (right.mantissa * powerOfTen left.scale : ℤ) /
      (powerOfTen (left.scale + right.scale) : ℕ) := by
  rw [Nat.add_comm]
  exact toRat_eq_align_fst right left

/-- The sum is taken for the exact one. -/
theorem add?_isTaken : IsTaken (left.toRat + right.toRat) (left.add? right) := by
  rw [toRat_eq_align_fst left right, toRat_eq_align_snd left right, ← add_div, ← Int.cast_add]
  exact nearest?_isTaken _ (powerOfTen_pos _)

theorem subtract?_isTaken : IsTaken (left.toRat - right.toRat) (left.subtract? right) := by
  rw [toRat_eq_align_fst left right, toRat_eq_align_snd left right, ← sub_div, ← Int.cast_sub]
  exact nearest?_isTaken _ (powerOfTen_pos _)

/-- The product is taken for the exact one. -/
theorem multiply?_isTaken : IsTaken (left.toRat * right.toRat) (left.multiply? right) := by
  have product : left.toRat * right.toRat =
      (left.mantissa * right.mantissa : ℤ) / (powerOfTen (left.scale + right.scale) : ℕ) := by
    rw [toRat_eq_div, toRat_eq_div, div_mul_div_comm, ← pow_add, cast_powerOfTen, Int.cast_mul]
  rw [product]
  exact nearest?_isTaken _ (powerOfTen_pos _)

variable {left right}

/-- The quotient of the aligned numerators is the quotient of the numbers. -/
theorem toRat_div_toRat (left right : Decimal) :
    left.toRat / right.toRat = (left.mantissa * powerOfTen right.scale : ℤ) /
      (right.mantissa * powerOfTen left.scale : ℤ) := by
  have common : ((powerOfTen (left.scale + right.scale) : ℕ) : ℚ) ≠ 0 := by
    exact_mod_cast (powerOfTen_pos _).ne'
  rw [toRat_eq_align_fst left right, toRat_eq_align_snd left right,
    div_div_div_cancel_right₀ common]

theorem align_snd_ne_zero (left : Decimal) (divisor : right.mantissa ≠ 0) :
    right.mantissa * powerOfTen left.scale ≠ 0 :=
  mul_ne_zero divisor (by exact_mod_cast (powerOfTen_pos _).ne')

/-- The quotient is taken for the exact one. -/
theorem divide?_isTaken (left : Decimal) (divisor : right.mantissa ≠ 0) :
    IsTaken (left.toRat / right.toRat) (left.divide? right) := by
  have aligned := align_snd_ne_zero left divisor
  -- The sign of the divisor goes to the numerator, which leaves a positive denominator.
  rw [toRat_div_toRat, ← signed_div_natAbs _ aligned]
  exact nearest?_isTaken _ (Int.natAbs_pos.mpr aligned)

/-- The truncated remainder; nothing is subtracted where the divisor is zero. -/
theorem remainder?_isTaken (left right : Decimal) :
    IsTaken (left.toRat - right.toRat * truncate (left.toRat / right.toRat))
      (left.remainder? right) := by
  rw [toRat_div_toRat, truncate_div, toRat_eq_align_fst left right, toRat_eq_align_snd left right,
    div_mul_eq_mul_div, ← sub_div, ← Int.cast_mul, ← Int.cast_sub, ← Int.tmod_def]
  exact nearest?_isTaken _ (powerOfTen_pos _)

end Operations

end Rulebook.Decimal

import Mathlib.Data.Option.Basic
import Mathlib.Tactic.LinearCombination
import Rulebook.Arithmetic.NumberSet
import Rulebook.Arithmetic.Power
import Rulebook.Proofs.Decimal.Trim

/-!
# Normal forms depend on the value alone

One more trailing zero lets a coefficient have one more digit, so sixteen significant digits are
counted from the same place and the same digits are rounded away. Decimals of one value therefore
have one normal form, and whatever starts from normal forms cannot tell them apart.
-/
namespace Rulebook

/-- A common factor does not change how a quotient is rounded. -/
theorem roundQuotient_mul_right (tie : Tie) (numerator denominator : Nat) {factor : Nat}
    (positive : 0 < factor) :
    roundQuotient tie (numerator * factor) (denominator * factor)
      = roundQuotient tie numerator denominator := by
  have below : 2 * (numerator % denominator * factor) < denominator * factor ↔
      2 * (numerator % denominator) < denominator := by
    rw [← Nat.mul_assoc, Nat.mul_lt_mul_right positive]
  have above : denominator * factor < 2 * (numerator % denominator * factor) ↔
      denominator < 2 * (numerator % denominator) := by
    rw [← Nat.mul_assoc, Nat.mul_lt_mul_right positive]
  simp only [roundQuotient, Nat.mul_div_mul_right _ _ positive, Nat.mul_mod_mul_right, below, above]

theorem roundRatio_mul_right (tie : Tie) (numerator : Int) (denominator : Nat) {factor : Nat}
    (positive : 0 < factor) :
    roundRatio tie (numerator * factor) (denominator * factor)
      = roundRatio tie numerator denominator := by
  have sign : (numerator * factor).sign = numerator.sign := by
    rw [Int.sign_mul, Int.sign_natCast_of_ne_zero (Nat.ne_of_gt positive), Int.mul_one]
  rw [roundRatio, roundRatio, sign, Int.natAbs_mul, Int.natAbs_natCast,
    roundQuotient_mul_right tie _ _ positive]

theorem roundRatio_one (tie : Tie) (numerator : Int) : roundRatio tie numerator 1 = numerator := by
  rw [roundRatio]
  simpa [roundQuotient, Nat.mod_one] using Int.sign_mul_natAbs numerator

/-- A further zero is one more digit in excess, unless the room for sixteen is not used up. -/
theorem excessDigits_mul_ten (coefficient : Nat) :
    excessDigits (coefficient * 10) =
      if coefficient * 10 < 10_000_000_000_000_000 then 0 else excessDigits coefficient + 1 := by
  rw [excessDigits, Nat.mul_div_cancel _ (by decide : 0 < 10)]

namespace Decimal

theorem sameValue_of_parts {left right : Decimal} (mantissa : left.mantissa = right.mantissa)
    (scale : left.scale = right.scale) : left.toRat = right.toRat := by
  rw [toRat, toRat, mantissa, scale]

/-- A further zero behind the point keeps the value. -/
theorem toRat_append_zero {left right : Decimal} (mantissa : left.mantissa = right.mantissa * 10)
    (scale : left.scale = right.scale + 1) : left.toRat = right.toRat := by
  rw [toRat_eq_iff, mantissa, scale, powerOfTen_succ]
  push_cast
  rw [Int.mul_right_comm, Int.mul_assoc]

/-- Rounding to places within those there are leaves so many. -/
theorem roundTo_parts (tie : Tie) {places : Nat} {number : Decimal}
    (within : places ≤ number.scale) :
    (number.roundTo tie places).mantissa
        = roundRatio tie number.mantissa (powerOfTen (number.scale - places)) ∧
      (number.roundTo tie places).scale = places := by
  unfold roundTo
  split
  next => exact ⟨rfl, rfl⟩
  next coarse =>
    -- All places are kept, and nothing is divided.
    have kept : number.scale = places := Nat.le_antisymm (Nat.not_lt.mp coarse) within
    rw [kept, Nat.sub_self, powerOfTen_zero, roundRatio_one]
    exact ⟨rfl, rfl⟩

/-- The places of a rounding count from the point, so a further zero behind them is lost. -/
theorem toRat_roundTo_append_zero {left right : Decimal} (tie : Tie) {places : Nat}
    (mantissa : left.mantissa = right.mantissa * 10) (scale : left.scale = right.scale + 1)
    (within : places ≤ right.scale) :
    (left.roundTo tie places).toRat = (right.roundTo tie places).toRat := by
  obtain ⟨leftMantissa, leftScale⟩ := roundTo_parts tie (show places ≤ left.scale by omega)
  obtain ⟨rightMantissa, rightScale⟩ := roundTo_parts tie within
  have gap : powerOfTen (left.scale - places) = powerOfTen (right.scale - places) * 10 := by
    rw [scale, Nat.succ_sub within, powerOfTen_succ]
  apply sameValue_of_parts
  · rw [leftMantissa, rightMantissa, gap, mantissa]
    exact_mod_cast roundRatio_mul_right tie right.mantissa _ (by decide : 0 < 10)
  · rw [leftScale, rightScale]

/-- The digits beyond the sixteenth are the same ones with a trailing zero and without it. -/
theorem toRat_roundSignificant_append_zero {left right : Decimal}
    (mantissa : left.mantissa = right.mantissa * 10) (scale : left.scale = right.scale + 1) :
    (roundSignificant left).toRat = (roundSignificant right).toRat := by
  have magnitude : left.mantissa.natAbs = right.mantissa.natAbs * 10 := by
    rw [mantissa, Int.natAbs_mul]
    rfl
  have same := toRat_append_zero mantissa scale
  have digits := excessDigits_mul_ten right.mantissa.natAbs
  rw [← magnitude] at digits
  by_cases short : left.mantissa.natAbs < 10_000_000_000_000_000
  · -- Neither coefficient has too many digits, so both numbers stay as they are.
    have shorter : excessDigits right.mantissa.natAbs = 0 := by
      rw [excessDigits, if_pos (by omega)]
    rw [if_pos short] at digits
    simpa [roundSignificant, digits, shorter, roundTo] using same
  · rw [if_neg short] at digits
    simp only [roundSignificant, digits, scale, Nat.add_le_add_iff_right, Nat.add_sub_add_right]
    split
    next behind => exact toRat_roundTo_append_zero .even mantissa scale (Nat.sub_le _ _)
    -- Digits before the point are rounded away in both or do not fit in both.
    next before =>
      have rounded : roundRatio .even left.mantissa
          (powerOfTen (excessDigits right.mantissa.natAbs + 1)) =
          roundRatio .even right.mantissa (powerOfTen (excessDigits right.mantissa.natAbs)) := by
        rw [mantissa, powerOfTen_succ]
        exact_mod_cast roundRatio_mul_right .even right.mantissa _ (by decide : 0 < 10)
      rw [rounded]
      cases ofParts? _ 0 with
      | none => exact same
      | some number => rfl

/-- Rounding to sixteen digits does not look at the sign of a zero. -/
theorem toRat_roundSignificant_of_parts {left right : Decimal}
    (mantissa : left.mantissa = right.mantissa) (scale : left.scale = right.scale) :
    (roundSignificant left).toRat = (roundSignificant right).toRat := by
  simp only [roundSignificant, mantissa, scale]
  split
  next behind =>
    have within := Nat.sub_le right.scale (excessDigits right.mantissa.natAbs)
    obtain ⟨rightMantissa, rightScale⟩ := roundTo_parts .even within
    obtain ⟨leftMantissa, leftScale⟩ := roundTo_parts .even (within.trans_eq scale.symm)
    apply sameValue_of_parts
    · rw [leftMantissa, rightMantissa, mantissa, scale]
    · rw [leftScale, rightScale]
  next before =>
    cases ofParts? _ 0 with
    | none => exact sameValue_of_parts mantissa scale
    | some number => rfl

/-- Trailing zeros do not change what is rounded to sixteen digits. -/
theorem toRat_roundSignificant_trim (number : Decimal) :
    (roundSignificant number).toRat = (roundSignificant number.trim).toRat := by
  obtain ⟨mantissa, scale, isNegativeZero, mantissa_lt, scale_le, mantissa_eq_zero⟩ := number
  -- One trailing zero after the other.
  induction scale generalizing mantissa isNegativeZero with
  | zero => exact toRat_roundSignificant_of_parts rfl rfl
  | succ scale ih =>
    by_cases divisible : mantissa % 10 = 0
    · have shorter : (mantissa / 10).natAbs < 0x1_00000000_00000000_00000000 := by omega
      have trimmed : (⟨mantissa, scale + 1, isNegativeZero, mantissa_lt, scale_le,
          mantissa_eq_zero⟩ : Decimal).trim
            = (⟨mantissa / 10, scale, false, shorter, by omega,
                fun signed => absurd signed Bool.false_ne_true⟩ : Decimal).trim := by
        simp only [trim, trimParts, divisible, if_true]
      rw [trimmed, ← ih]
      exact toRat_roundSignificant_append_zero (by simp only; omega) rfl
    · -- Nothing is dropped, and at most the sign of a zero is lost.
      refine toRat_roundSignificant_of_parts ?_ ?_
      all_goals simp only [trim, trimParts, divisible, if_false]

/-- Decimals of one value have one normal form. -/
theorem normalize_eq_of_toRat_eq {left right : Decimal} (same : left.toRat = right.toRat) :
    normalize left = normalize right := by
  rw [normalize_eq_trim, normalize_eq_trim, trim_eq_trim_iff, toRat_roundSignificant_trim left,
    toRat_roundSignificant_trim right, (trim_eq_trim_iff left right).mpr same]

/-- Whether a number is an integer, and which one, depends on its value alone. -/
theorem toInteger?_eq_some_iff (number : Decimal) (integer : Int) :
    number.toInteger? = some integer ↔ number.mantissa = integer * powerOfTen number.scale := by
  have positive : (powerOfTen number.scale : Int) ≠ 0 := by
    exact_mod_cast Nat.ne_of_gt (powerOfTen_pos _)
  unfold toInteger?
  split
  next divisible =>
    rw [Option.some.injEq]
    constructor
    · rintro rfl
      exact (Int.ediv_mul_cancel (Int.dvd_of_emod_eq_zero divisible)).symm
    · intro multiple
      rw [multiple, Int.mul_ediv_cancel _ positive]
  next indivisible =>
    refine iff_of_false (by simp) fun multiple => indivisible ?_
    rw [multiple, Int.mul_emod_left]

theorem toInteger?_eq_of_toRat_eq {left right : Decimal} (same : left.toRat = right.toRat) :
    left.toInteger? = right.toInteger? := by
  -- Being a multiple passes between the two pairs of mantissa and power of ten.
  have transfer {first second : Decimal} (same : first.toRat = second.toRat) (integer : Int)
      (whole : first.mantissa = integer * powerOfTen first.scale) :
      second.mantissa = integer * powerOfTen second.scale := by
    have positive : (powerOfTen first.scale : Int) ≠ 0 := by
      exact_mod_cast Nat.ne_of_gt (powerOfTen_pos _)
    apply Int.eq_of_mul_eq_mul_right positive
    rw [← (toRat_eq_iff first second).mp same, whole, Int.mul_right_comm]
  apply Option.ext
  intro integer
  rw [toInteger?_eq_some_iff, toInteger?_eq_some_iff]
  exact ⟨transfer same integer, transfer same.symm integer⟩

/-- A positive factor does not change a comparison. -/
theorem compare_mul_right (left right : Int) {factor : Int} (positive : 0 < factor) :
    compare (left * factor) (right * factor) = compare left right := by
  have below : left * factor < right * factor ↔ left < right := Int.mul_lt_mul_right positive
  have equal : left * factor = right * factor ↔ left = right :=
    Int.mul_eq_mul_right_iff (Int.ne_of_gt positive)
  simp only [compare, compareOfLessAndEq, below, equal]

/-- Comparisons see values only. -/
theorem order_eq_of_toRat_eq {left right left' right' : Decimal}
    (same : left.toRat = right.toRat) (same' : left'.toRat = right'.toRat) :
    left.order left' = right.order right' := by
  rw [toRat_eq_iff] at same same'
  have positive (places places' : Nat) : 0 < (powerOfTen places * powerOfTen places' : Int) := by
    exact_mod_cast Nat.mul_pos (powerOfTen_pos places) (powerOfTen_pos places')
  -- Both comparisons are scaled to the product of all four powers of ten.
  calc left.order left'
      = compare
          (left.mantissa * powerOfTen left'.scale
            * (powerOfTen right.scale * powerOfTen right'.scale))
          (left'.mantissa * powerOfTen left.scale
            * (powerOfTen right.scale * powerOfTen right'.scale)) :=
        (compare_mul_right _ _ (positive _ _)).symm
    _ = compare
          (right.mantissa * powerOfTen right'.scale
            * (powerOfTen left.scale * powerOfTen left'.scale))
          (right'.mantissa * powerOfTen right.scale
            * (powerOfTen left.scale * powerOfTen left'.scale)) := by
        congr 1
        · linear_combination (powerOfTen left'.scale * powerOfTen right'.scale : Int) * same
        · linear_combination (powerOfTen left.scale * powerOfTen right.scale : Int) * same'
    _ = right.order right' := compare_mul_right _ _ (positive _ _)

/-- Decimals compare as equal just if they have one value. -/
theorem order_eq_iff (left right : Decimal) :
    left.order right = .eq ↔ left.toRat = right.toRat := by
  rw [toRat_eq_iff, order, compare_eq_iff_eq]

end Decimal

namespace Arithmetic

open Decimal

variable {left right left' right' : Decimal}

/-- A binary operation of the kernel that sees the values of its operands only. -/
def SeesValues (operation : Decimal → Decimal → Except ArithmeticError Decimal) : Prop :=
  ∀ {left right left' right' : Decimal}, left.toRat = right.toRat → left'.toRat = right'.toRat →
    operation left left' = operation right right'

theorem add_seesValues : SeesValues add := fun same same' => by
  rw [add, add, normalize_eq_of_toRat_eq same, normalize_eq_of_toRat_eq same']

theorem subtract_seesValues : SeesValues subtract := fun same same' => by
  rw [subtract, subtract, normalize_eq_of_toRat_eq same, normalize_eq_of_toRat_eq same']

theorem multiply_seesValues : SeesValues multiply := fun same same' => by
  rw [multiply, multiply, normalize_eq_of_toRat_eq same, normalize_eq_of_toRat_eq same']

theorem divide_seesValues : SeesValues divide := fun same same' => by
  rw [divide, divide, normalize_eq_of_toRat_eq same, normalize_eq_of_toRat_eq same']

theorem modulus_seesValues : SeesValues modulus := fun same same' => by
  rw [modulus, modulus, normalize_eq_of_toRat_eq same, normalize_eq_of_toRat_eq same']

theorem power_seesValues (powers : PowerLibrary) : SeesValues (power powers) :=
  fun same same' => by
    rw [power, power, normalize_eq_of_toRat_eq same, normalize_eq_of_toRat_eq same']

theorem order_eq_of_toRat_eq (same : left.toRat = right.toRat)
    (same' : left'.toRat = right'.toRat) : order left left' = order right right' := by
  rw [order, order, normalize_eq_of_toRat_eq same, normalize_eq_of_toRat_eq same']

theorem equal_eq_of_toRat_eq (same : left.toRat = right.toRat)
    (same' : left'.toRat = right'.toRat) : equal left left' = equal right right' := by
  rw [equal, equal, order_eq_of_toRat_eq same same']

theorem toPlain_eq_of_toRat_eq (same : left.toRat = right.toRat) :
    toPlain left = toPlain right := by
  rw [toPlain, toPlain, normalize_eq_of_toRat_eq same]

theorem roundAt_eq_of_toRat_eq (tie : Tie) (places : Nat) (same : left.toRat = right.toRat) :
    roundAt tie places left = roundAt tie places right := by
  rw [roundAt, roundAt, normalize_eq_of_toRat_eq same]

theorem floor_eq_of_toRat_eq (same : left.toRat = right.toRat) : floor left = floor right := by
  rw [floor, floor, normalize_eq_of_toRat_eq same]

theorem ceil_eq_of_toRat_eq (same : left.toRat = right.toRat) : ceil left = ceil right := by
  rw [ceil, ceil, normalize_eq_of_toRat_eq same]

theorem abs_eq_of_toRat_eq (same : left.toRat = right.toRat) : abs left = abs right := by
  rw [abs, abs, normalize_eq_of_toRat_eq same]

end Arithmetic

namespace NumberSet

/-- Bounds of one value, or no bound on either side. -/
def SameBound : Option Decimal → Option Decimal → Prop :=
  Option.Rel fun left right => left.toRat = right.toRat

variable {left right : NumberSet} {amount amount' : Decimal}

theorem SameBound.any_eq {bound bound' : Option Decimal} (same : SameBound bound bound')
    {test test' : Decimal → Bool}
    (tested : ∀ {number number' : Decimal}, number.toRat = number'.toRat →
      test number = test' number') : bound.any test = bound'.any test' := by
  cases same with
  | none => rfl
  | some equal => exact tested equal

theorem toRat_anchor_eq (lower : SameBound left.lower right.lower)
    (upper : SameBound left.upper right.upper) : left.anchor.toRat = right.anchor.toRat := by
  unfold anchor
  generalize left.lower = bound at lower ⊢
  generalize right.lower = bound' at lower ⊢
  cases lower with
  | some equal => exact equal
  | none =>
    generalize left.upper = bound at upper ⊢
    generalize right.upper = bound' at upper ⊢
    cases upper with
    | some equal => exact equal
    | none => rfl

/-- Membership is decided by the values of the amount, the bounds and the step. -/
theorem contains_eq_of_toRat_eq (same : amount.toRat = amount'.toRat)
    (lower : SameBound left.lower right.lower) (upper : SameBound left.upper right.upper)
    (step : SameBound left.step right.step) : left.contains amount = right.contains amount' := by
  have below : left.isBelow amount = right.isBelow amount' :=
    lower.any_eq fun bound => by rw [Arithmetic.order_eq_of_toRat_eq same bound]
  have above : left.isAbove amount = right.isAbove amount' :=
    upper.any_eq fun bound => by rw [Arithmetic.order_eq_of_toRat_eq same bound]
  have offset := Arithmetic.subtract_seesValues same (toRat_anchor_eq lower upper)
  unfold contains
  rw [below, above, offset]
  generalize left.step = step at step ⊢
  generalize right.step = step' at step ⊢
  cases step with
  | none => rfl
  | some equal =>
    -- The differences from the anchors are equal, so their remainders are.
    have remainder (offset : Decimal) := Arithmetic.modulus_seesValues (Eq.refl offset.toRat) equal
    simp only [remainder]

end NumberSet

end Rulebook

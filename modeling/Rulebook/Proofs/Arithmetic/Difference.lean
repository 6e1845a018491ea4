import Mathlib.Data.Sign.Basic
import Rulebook.Proofs.Arithmetic.Exactness

/-!
# Differences have the sign of the order

A comparison is exact while a difference is rounded twice, unless it has no more than sixteen
digits. Still a difference that is not zero is at least one unit of the 28th place, as decimals
themselves are, and neither rounding takes such a value to zero or across it. So the sign of a
difference tells the order of its operands.
-/
namespace Rulebook

/-- What stays on its side of zero and does not get there has the same sign. -/
theorem sign_eq_sign {value result : ℚ} (below : value ≤ 0 → result ≤ 0)
    (above : 0 ≤ value → 0 ≤ result) (apart : value ≠ 0 → result ≠ 0) :
    SignType.sign result = SignType.sign value := by
  rcases lt_trichotomy value 0 with negative | rfl | positive
  · have strict := lt_of_le_of_ne (below negative.le) (apart negative.ne)
    rw [sign_neg strict, sign_neg negative]
  · rw [le_antisymm (below le_rfl) (above le_rfl)]
  · have strict := lt_of_le_of_ne (above positive.le) (apart positive.ne').symm
    rw [sign_pos strict, sign_pos positive]

namespace Decimal

theorem Represents.sign_toRat {tie : Tie} {precise : ℚ} {number : Decimal}
    (represents : Represents tie precise number) (coarse : precise ≠ 0 → unit ≤ |precise|) :
    SignType.sign number.toRat = SignType.sign precise := by
  refine sign_eq_sign (fun le => ?_) (fun ge => ?_) fun nonzero =>
    represents.toRat_ne_zero (coarse nonzero)
  · exact_mod_cast represents.toRat_le 0 (by exact_mod_cast le)
  · exact_mod_cast represents.le_toRat 0 (by exact_mod_cast ge)

/-- Normalization keeps the sign. -/
theorem sign_toRat_normalize (number : Decimal) :
    SignType.sign (normalize number).toRat = SignType.sign number.toRat := by
  have zero : (normalize zero).toRat = 0 := by rw [normalize_eq_zero toRat_zero, toRat_zero]
  refine sign_eq_sign (fun le => ?_) (fun ge => ?_) toRat_normalize_ne_zero
  · exact (toRat_normalize_le (toRat_zero ▸ le)).trans_eq zero
  · exact zero.ge.trans (toRat_normalize_le (toRat_zero ▸ ge))

theorem isZero_normalize_iff (number : Decimal) :
    (normalize number).isZero = true ↔ number.toRat = 0 := by
  rw [isZero_iff, ← sign_eq_zero_iff, sign_toRat_normalize, sign_eq_zero_iff]

end Decimal

namespace Arithmetic

open Decimal

/-- Numbers are compared as their normal forms. -/
theorem order_eq_compare (left right : Decimal) :
    order left right = compare (normalize left).toRat (normalize right).toRat := by
  rw [order, order_eq_compareOn, compareOn]

theorem eq_overflow_of_settle {operation : Operation} {taken : Option Decimal}
    {failure : ArithmeticError} (failed : settle operation taken = .error failure) :
    failure = .overflow operation := by
  cases taken with
  | none => exact (Except.error.inj failed).symm
  | some number => cases failed

variable {left right difference : Decimal}

/-- A difference of sixteen digits is not rounded. -/
theorem toRat_difference_eq (ok : subtract left right = .ok difference)
    (digits : HasDigits 16 ((normalize left).toRat - (normalize right).toRat)) :
    difference.toRat = (normalize left).toRat - (normalize right).toRat := by
  obtain ⟨number, found, rfl⟩ := settle_eq_ok_iff.mp ok
  have isTaken := subtract?_isTaken (normalize left) (normalize right)
  -- There is a result, so the exact difference is not out of range.
  have present : ¬2 ^ 96 ≤ |(normalize left).toRat - (normalize right).toRat| + 1 / 2 := by
    rw [← isTaken.missing, found]
    exact Option.some_ne_none number
  -- The exact difference is a decimal, so the first rounding keeps it, and it is short enough for
  -- the second.
  obtain ⟨precise, value⟩ := exists_toRat_eq_sub digits (by linarith)
  rw [← value] at isTaken digits ⊢
  have represents := isTaken.represents found
  rw [← represents.toRat_eq] at digits ⊢
  exact digits.toRat_normalize

/-- A difference has the sign of the exact one. -/
theorem sign_difference (ok : subtract left right = .ok difference) :
    SignType.sign difference.toRat =
      SignType.sign ((normalize left).toRat - (normalize right).toRat) := by
  obtain ⟨number, found, rfl⟩ := settle_eq_ok_iff.mp ok
  have represents := (subtract?_isTaken (normalize left) (normalize right)).represents found
  rw [sign_toRat_normalize]
  exact represents.sign_toRat fun nonzero => unit_le_abs_sub _ _ (sub_ne_zero.mp nonzero)

/-- A difference is negative, zero or positive exactly as its operands are in ascending order, equal
or in descending order. -/
theorem order_tells_sign_of_difference (left right difference : Decimal)
    (ok : subtract left right = .ok difference) :
    (difference.toRat < 0 ↔ order left right = .lt) ∧
      (difference.toRat = 0 ↔ order left right = .eq) ∧
      (0 < difference.toRat ↔ order left right = .gt) ∧
      (difference.isZero = true → equal left right = true) := by
  have sign := sign_difference ok
  -- The order compares the operands themselves, so their exact difference tells it.
  have same : difference.toRat = 0 ↔ order left right = .eq := by
    rw [← sign_eq_zero_iff, sign, sign_eq_zero_iff, sub_eq_zero, order_eq_compare,
      compare_eq_iff_eq]
  refine ⟨?ascending, same, ?descending, fun zero => ?_⟩
  case ascending =>
    rw [← sign_eq_neg_one_iff, sign, sign_eq_neg_one_iff, sub_neg, order_eq_compare,
      compare_lt_iff_lt]
  case descending =>
    rw [← sign_eq_one_iff, sign, sign_eq_one_iff, sub_pos, order_eq_compare, compare_gt_iff_gt]
  · rw [equal, same.mp ((isZero_iff difference).mp zero)]
    rfl

/-- The smaller operand has no place that the difference has room for. -/
theorem order_tells_sign_of_large_difference :
    let least : Decimal := { mantissa := 1, scale := 28 }
    let large : Decimal := { mantissa := 79228162514264330000000000000, scale := 0 }
    subtract least large = .ok large.negate ∧ large.negate.toRat < 0 ∧ order least large = .lt := by
  intro least large
  have ok : subtract least large = .ok large.negate := by decide +kernel
  have negative : large.negate.toRat < 0 := by decide +kernel
  exact ⟨ok, negative, (order_tells_sign_of_difference least large _ ok).1.mp negative⟩

end Arithmetic

end Rulebook

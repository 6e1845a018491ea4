import Mathlib.Algebra.Order.Field.Basic
import Rulebook.Proofs.Decimal.Normal
import Rulebook.Proofs.Decimal.Represented

/-!
# The order of decimals

Mantissas over a common power of ten are ordered as the values are. So decimals have the order of
the rationals, up to trailing zeros, and are read as integers where their values are integers.
-/
namespace Rulebook.Decimal

/-- The order of decimals is that of their values. -/
theorem order_eq_lt_iff (left right : Decimal) :
    left.order right = .lt ↔ left.toRat < right.toRat := by
  have positive (number : Decimal) : (0 : ℚ) < 10 ^ number.scale := by positivity
  rw [order, compare_lt_iff_lt, toRat_eq_div, toRat_eq_div,
    div_lt_div_iff₀ (positive left) (positive right), ← cast_powerOfTen, ← cast_powerOfTen]
  exact_mod_cast Iff.rfl

theorem order_swap (left right : Decimal) : (left.order right).swap = right.order left := by
  rw [order, order]
  exact Std.OrientedCmp.eq_swap.symm

theorem order_eq_compareOn : order = compareOn toRat := by
  funext left right
  rw [compareOn]
  rcases lt_trichotomy left.toRat right.toRat with below | same | above
  · rw [(order_eq_lt_iff left right).mpr below, compare_lt_iff_lt.mpr below]
  · rw [(order_eq_iff left right).mpr same, compare_eq_iff_eq.mpr same]
  -- The descending case is the ascending one of the operands exchanged.
  · rw [← order_swap, (order_eq_lt_iff right left).mpr above, compare_gt_iff_gt.mpr above]
    rfl

instance : Std.TransCmp order :=
  order_eq_compareOn ▸ inferInstance

/-- Decimals are read as integers where their values are integers. -/
theorem toInteger?_eq_some_iff_toRat (number : Decimal) (whole : ℤ) :
    number.toInteger? = some whole ↔ number.toRat = whole := by
  rw [toInteger?_eq_some_iff, toRat_eq_div, div_eq_iff (by positivity), ← cast_powerOfTen]
  norm_cast

end Rulebook.Decimal

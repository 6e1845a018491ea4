import Rulebook.Proofs.Arithmetic.NormalForm

/-!
# Operands exchanged

Signs are handled apart from magnitudes wherever a number is rounded, so rounding commutes with
negation, and so does the choice of the places at which a number has room. Sums and products do not
depend on the order of their operands, and a difference changes its sign with it, up to the decision
whether there is a result. Only a difference of zero has no sign in either order.
-/
namespace Rulebook

theorem roundRatio_neg (tie : Tie) (numerator : Int) (denominator : Nat) :
    roundRatio tie (-numerator) denominator = -roundRatio tie numerator denominator := by
  rw [roundRatio, roundRatio, Int.sign_neg, Int.natAbs_neg, Int.neg_mul]

namespace Decimal

/-- A mantissa fits exactly if its negation does. Only zero comes without the sign. -/
theorem ofParts?_neg (mantissa : Int) (scale : Nat) :
    ofParts? (-mantissa) scale =
      (ofParts? mantissa scale).map fun number => number.negate.unsignedZero := by
  unfold ofParts?
  simp only [Int.natAbs_neg]
  split
  · split
    · rfl
    · rfl
  · rfl

theorem nearestWithin?_neg (numerator : Int) (denominator places : Nat) :
    nearestWithin? (-numerator) denominator places =
      (nearestWithin? numerator denominator places).map
        fun number => number.negate.unsignedZero := by
  induction places with
  | zero => rw [nearestWithin?, nearestWithin?, roundRatio_neg, ofParts?_neg]
  | succ places ih =>
    -- A mantissa has room at a place exactly if its negation has.
    rw [nearestWithin?, nearestWithin?, Int.neg_mul, roundRatio_neg, ofParts?_neg, ih]
    cases ofParts? (roundRatio .even _ denominator) (places + 1) with
    | none => rfl
    | some number => rfl

section Checked

variable (left right : Decimal)

theorem add?_comm : left.add? right = right.add? left := by
  rw [add?, add?, align, align]
  dsimp only
  rw [Int.add_comm, Nat.add_comm]

theorem multiply?_comm : left.multiply? right = right.multiply? left := by
  rw [multiply?, multiply?, Int.mul_comm, Nat.add_comm]

/-- A difference changes its sign with the order of the operands. -/
theorem subtract?_swap :
    right.subtract? left =
      (left.subtract? right).map fun difference => difference.negate.unsignedZero := by
  rw [subtract?, subtract?, align, align]
  dsimp only
  rw [nearest?, nearest?, ← nearestWithin?_neg, Int.neg_sub, Nat.add_comm]

end Checked

/-! ### Normal forms of negated numbers -/

variable (number : Decimal)

theorem lastPlace_negate : number.negate.lastPlace = number.lastPlace := by
  rw [lastPlace, lastPlace, excess, excess, mantissa_negate, scale_negate, Int.natAbs_neg]

theorem kept_negate : number.negate.kept = -number.kept := by
  rw [kept, kept, excess, excess, mantissa_negate, Int.natAbs_neg, roundRatio_neg]

/-- Normalization commutes with negation. -/
theorem toRat_normalize_negate : (normalize number.negate).toRat = -(normalize number).toRat := by
  -- Both signs lie on the same side of the limit.
  rcases lt_or_ge |number.toRat| digitLimit with below | above
  · rw [toRat_normalize_of_lt below, toRat_normalize_of_lt (by rwa [toRat_negate, abs_neg]),
      kept_negate, lastPlace_negate]
    push_cast
    ring
  · rw [toRat_normalize_of_le above, toRat_normalize_of_le (by rwa [toRat_negate, abs_neg]),
      toRat_negate]

/-- Whether a number is normalized before it is negated makes no difference. -/
theorem normalize_negate_normalize :
    normalize (normalize number).negate = normalize number.negate := by
  rw [normalize_eq_normalize_iff, toRat_normalize_negate, toRat_normalize_negate,
    normalize_normalize]

end Decimal

namespace Arithmetic

open Decimal

theorem settle_map_negate (operation : Operation) (taken : Option Decimal) :
    settle operation (taken.map fun number => number.negate.unsignedZero) =
      (settle operation taken).map fun result => normalize result.negate := by
  cases taken with
  | none => rfl
  | some number =>
    have same := normalize_eq_of_toRat_eq number.negate.toRat_unsignedZero
    exact congrArg Except.ok (same.trans (normalize_negate_normalize number).symm)

theorem subtract_swap (left right : Decimal) :
    subtract right left =
      (subtract left right).map fun difference => normalize difference.negate := by
  rw [subtract, subtract, subtract?_swap, settle_map_negate]

/-- Sums and products do not depend on the order of their operands, failures included. A difference
fails in both orders or in none, and one is the normal form of the negation of the other. -/
theorem operations_are_symmetric (left right : Decimal) :
    add left right = add right left ∧ multiply left right = multiply right left ∧
      subtract right left =
        (subtract left right).map (fun difference => normalize difference.negate) ∧
      ∀ difference, subtract left right = .ok difference ↔
        normalize difference = difference ∧
          subtract right left = .ok (normalize difference.negate) := by
  refine ⟨?sum, ?product, subtract_swap left right, fun difference => ⟨?once, ?again⟩⟩
  case sum => rw [add, add, add?_comm]
  case product => rw [multiply, multiply, multiply?_comm]
  case once =>
    intro ok
    rw [subtract_swap, ok]
    exact ⟨normalize_of_settle ok, rfl⟩
  case again =>
    rintro ⟨normal, ok⟩
    -- Only a normal form can come back.
    rw [subtract_swap, ok]
    -- Negated twice, only a normal form comes back as it was.
    change Except.ok (normalize (normalize difference.negate).negate) = .ok difference
    rw [normalize_negate_normalize, negate_negate, normal]

end Arithmetic

end Rulebook

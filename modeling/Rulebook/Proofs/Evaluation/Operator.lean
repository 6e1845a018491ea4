import Rulebook.Proofs.Evaluation.Simulation
import Rulebook.Proofs.Value.Reading

/-!
# Operators on related values

Operators work on values of one content alike: they take numbers apart by value only, everything
else they look at is the same, and their failures are ordinary. As every value has its own content,
this also says that an operator has no other failures on the same values.
-/
namespace Rulebook

namespace Operator

open Value (SameContent)

variable {left right left' right' : Value}

/-- A result is like itself, since arithmetic failures are ordinary. -/
theorem amount_alike (result : Except ArithmeticError Decimal) :
    Alike Halt.IsOrdinary SameContent (amount result) (amount result) := by
  cases result with
  | ok value => exact .ok (.refl _)
  | error error => exact .error trivial

/-- Operands of one content are the same numbers, or mismatches told alike. -/
theorem operand_alike (same : left.SameContent right) (symbol : String) :
    Alike Halt.IsOrdinary Decimal.SameValue (operand symbol left) (operand symbol right) := by
  have number := same.number?
  unfold operand mismatch
  rw [same.typeName_eq]
  generalize left.number? = found at number ⊢
  generalize right.number? = found' at number ⊢
  cases number with
  | none => exact .error trivial
  | some equal => exact .ok equal

/-- Conditions of one content have the same truth. -/
theorem condition_alike (same : left.SameContent right) (operator : String) :
    Alike Halt.IsOrdinary Eq (condition operator left) (condition operator right) := by
  have bare := same.bare
  unfold condition mismatch
  generalize left.bare = value at bare ⊢
  generalize right.bare = value' at bare ⊢
  cases bare with
  | bool truth => exact .ok rfl
  | null => exact .ok rfl
  | _ => exact .error trivial

/-- A negative is the difference from zero, and null is its own. -/
theorem applyUnary_negate (value : Value) :
    applyUnary .negate value =
      if value.bare.isNull then .ok .null
      else operand "-" value.bare >>= fun number => amount (Arithmetic.subtract .zero number) := by
  unfold applyUnary
  cases value.bare <;> rfl

/-- Both operators with one operand respect content. -/
theorem applyUnary_alike (same : left.SameContent right) (operator : UnaryOperator) :
    Alike Halt.IsOrdinary SameContent (applyUnary operator left) (applyUnary operator right) := by
  cases operator with
  | negate =>
    rw [applyUnary_negate, applyUnary_negate, same.bare.isNull_eq]
    split
    · exact .ok .null
    · refine (operand_alike same.bare "-").bind fun number number' equal => ?_
      rw [Arithmetic.subtract_seesValues (Eq.refl Decimal.zero.toRat) equal]
      exact amount_alike _
  | not =>
    refine (condition_alike same _).bind fun truth truth' equal => ?_
    subst equal
    exact .ok (.bool _)

/-- A calculation with null is null; otherwise it takes both numbers, the left one first. -/
theorem calculate_eq (symbol : String)
    (apply : Decimal → Decimal → Except ArithmeticError Decimal) (left right : Value) :
    calculate symbol apply left right =
      if left.bare.isNull || right.bare.isNull then .ok .null
      else operand symbol left.bare >>= fun leftAmount =>
        operand symbol right.bare >>= fun rightAmount =>
          amount (apply leftAmount rightAmount) := by
  unfold calculate
  cases left.bare with
  | null => rfl
  | _ => cases right.bare <;> rfl

/-- Calculations respect content if the arithmetic sees values only. -/
theorem calculate_alike (symbol : String)
    {apply : Decimal → Decimal → Except ArithmeticError Decimal}
    (sees : Arithmetic.SeesValues apply) (same : left.SameContent right)
    (same' : left'.SameContent right') :
    Alike Halt.IsOrdinary SameContent (calculate symbol apply left left')
      (calculate symbol apply right right') := by
  rw [calculate_eq, calculate_eq, same.bare.isNull_eq, same'.bare.isNull_eq]
  split
  · exact .ok .null
  · refine (operand_alike same.bare symbol).bind fun _ _ equal =>
      (operand_alike same'.bare symbol).bind fun _ _ equal' => ?_
    rw [sees equal equal']
    exact amount_alike _

/-- The sum of numbers and the joining of texts respect content. -/
theorem plus_alike (same : left.SameContent right) (same' : left'.SameContent right') :
    Alike Halt.IsOrdinary SameContent (plus left left') (plus right right') := by
  have sums := calculate_alike "+" Arithmetic.add_seesValues same same'
  have bare := same.bare
  have bare' := same'.bare
  unfold plus
  generalize left.bare = value at bare ⊢
  generalize right.bare = other at bare ⊢
  generalize left'.bare = value' at bare' ⊢
  generalize right'.bare = other' at bare' ⊢
  -- Two texts are joined; everything else is a sum.
  cases bare with
  | text characters =>
    cases bare' with
    | text characters' => exact .ok (.text _)
    | _ => exact sums
  | _ => exact sums

/-- Comparisons of order respect content. -/
theorem compareBy_alike (symbol : String) (test : Ordering → Bool)
    (same : left.SameContent right) (same' : left'.SameContent right') :
    Alike Halt.IsOrdinary SameContent (compareBy symbol test left left')
      (compareBy symbol test right right') := by
  unfold compareBy
  rw [same.comparison_eq same', same.bare.typeName_eq, same'.bare.typeName_eq]
  cases right.comparison right' with
  | ordered ordering => exact .ok (.bool _)
  | unknown => exact .ok (.bool _)
  | incomparable => exact .error trivial

/-- All operators that run both operands and look at nothing else respect content. -/
theorem operation_alike {operator : BinaryOperator}
    {operation : Value → Value → Except Halt Value} (found : operator.operation? = some operation)
    (same : left.SameContent right) (same' : left'.SameContent right') :
    Alike Halt.IsOrdinary SameContent (operation left left') (operation right right') := by
  cases operator with
  | power | and | or | within => cases found
  | add => cases found; exact plus_alike same same'
  | subtract => cases found; exact calculate_alike _ Arithmetic.subtract_seesValues same same'
  | multiply => cases found; exact calculate_alike _ Arithmetic.multiply_seesValues same same'
  | divide => cases found; exact calculate_alike _ Arithmetic.divide_seesValues same same'
  | modulus => cases found; exact calculate_alike _ Arithmetic.modulus_seesValues same same'
  | equal => cases found; simp only [same.equals_eq same']; exact .ok (.bool _)
  | unequal => cases found; simp only [same.equals_eq same']; exact .ok (.bool _)
  | less | lessOrEqual | greater | greaterOrEqual =>
    cases found
    exact compareBy_alike _ _ same same'

end Operator

namespace Agreement

variable {halts : Halt → Halt → Prop} {waived : Halt → Prop}

/-- Operators respect content. -/
theorem lawful_content (ordinary : ∀ halt : Halt, halt.IsOrdinary → halts halt halt) :
    Lawful ⟨Value.SameContent, halts, waived⟩ where
  ordinary := ordinary
  null := .null
  bool := .bool
  list same := .list (Value.sameItems_iff_forall₂.mpr same)
  bare same := same.bare
  typeName same := same.typeName_eq
  equals same same' := same.equals_eq same'
  condition same := Operator.condition_alike same
  unary same := Operator.applyUnary_alike same
  binary same same' _ _ found := Operator.operation_alike found same same'
  power same same' _ powers :=
    Operator.calculate_alike _ (Arithmetic.power_seesValues powers) same same'

/-- Operators give the same for the same values. -/
theorem lawful_eq (ordinary : ∀ halt : Halt, halt.IsOrdinary → halts halt halt) :
    Lawful ⟨Eq, halts, waived⟩ where
  ordinary := ordinary
  null := rfl
  bool _ := rfl
  list same := congrArg Value.list (List.forall₂_eq_eq_eq ▸ same)
  bare same := congrArg Value.bare same
  typeName same := congrArg Value.typeName same
  equals same same' := congrArg₂ Value.equals same same'
  condition {value _} same operator := by
    subst same
    exact Operator.condition_alike (.refl value) operator
  unary {value _} same operator := by
    subst same
    exact (Operator.applyUnary_alike (.refl value) operator).settled_of_self
  binary {left _ right _} same same' _ _ found := by
    subst same same'
    exact (Operator.operation_alike found (.refl left) (.refl right)).settled_of_self
  power {left _ right _} same same' _ powers := by
    subst same same'
    exact (Operator.calculate_alike _ (Arithmetic.power_seesValues powers) (.refl left)
      (.refl right)).settled_of_self

end Agreement

end Rulebook

import Rulebook.Proofs.Evaluation.Run
import Rulebook.Proofs.Evaluation.Simulation
import Rulebook.Proofs.Value.Order

/-!
# The operators of order

The operators of order run both of their operands and ask how the values are ordered, while the
operator of equality asks whether they are equal. For values that have an order these answers fit
together, except on amounts of money that are equal but for their currencies: these are not equal,
and yet neither of them is less.
-/
namespace Rulebook

/-- What the operator tells of two values, if it always runs both of its operands and does not
fail. -/
def BinaryOperator.Tells (operator : BinaryOperator) (left right : Value) (truth : Bool) : Prop :=
  ∃ operation, operator.operation? = some operation ∧ operation left right = .ok (.bool truth)

/-- The operators of order and of equality. -/
def BinaryOperator.comparing : List BinaryOperator :=
  [.equal, .less, .lessOrEqual, .greater, .greaterOrEqual]

open BinaryOperator (less lessOrEqual greater greaterOrEqual equal comparing)

namespace BinaryOperator

variable {left right : Value}

theorem tells_iff {operator : BinaryOperator} {operation : Value → Value → Except Halt Value}
    (found : operator.operation? = some operation) (truth : Bool) :
    operator.Tells left right truth ↔ operation left right = .ok (.bool truth) := by
  simp only [Tells, found, Option.some.injEq, exists_eq_left']

theorem Tells.unique {operator : BinaryOperator} {truth truth' : Bool}
    (told : operator.Tells left right truth) (told' : operator.Tells left right truth') :
    truth = truth' := by
  obtain ⟨operation, found, answered⟩ := told
  rw [tells_iff found, answered] at told'
  cases told'
  rfl

/-- The operators of order differ in the orderings for which they hold. -/
theorem eq_equal_or_exists_test {operator : BinaryOperator} (compares : operator ∈ comparing) :
    operator = equal ∨
      ∃ test, operator.operation? = some (Operator.compareBy operator.symbol test) := by
  simp only [comparing, List.mem_cons, List.not_mem_nil, or_false] at compares
  obtain rfl | rfl | rfl | rfl | rfl := compares
  · exact .inl rfl
  all_goals exact .inr ⟨_, rfl⟩

theorem exists_operation {operator : BinaryOperator} (compares : operator ∈ comparing) :
    ∃ operation, operator.operation? = some operation := by
  obtain rfl | ⟨test, found⟩ := eq_equal_or_exists_test compares
  · exact ⟨_, rfl⟩
  · exact ⟨_, found⟩

theorem tells_equal_iff (truth : Bool) :
    equal.Tells left right truth ↔ left.equals right = truth := by
  rw [tells_iff rfl, Except.ok.injEq, Value.bool.injEq]

variable {ordering : Ordering}

section

variable (ordered : left.comparison right = .ordered ordering) (truth : Bool)

include ordered

theorem tells_iff_of_ordered {operator : BinaryOperator} {test : Ordering → Bool}
    (found : operator.operation? = some (Operator.compareBy operator.symbol test)) :
    operator.Tells left right truth ↔ test ordering = truth := by
  rw [tells_iff found, Operator.compareBy, ordered, Except.ok.injEq, Value.bool.injEq]

theorem tells_less_iff : less.Tells left right truth ↔ ordering.isLT = truth :=
  tells_iff_of_ordered ordered truth rfl

theorem tells_lessOrEqual_iff : lessOrEqual.Tells left right truth ↔ ordering.isLE = truth :=
  tells_iff_of_ordered ordered truth rfl

theorem tells_greater_iff : greater.Tells left right truth ↔ ordering.isGT = truth :=
  tells_iff_of_ordered ordered truth rfl

theorem tells_greaterOrEqual_iff :
    greaterOrEqual.Tells left right truth ↔ ordering.isGE = truth :=
  tells_iff_of_ordered ordered truth rfl

theorem exists_tells {operator : BinaryOperator} (compares : operator ∈ comparing) :
    ∃ truth, operator.Tells left right truth := by
  obtain rfl | ⟨test, found⟩ := eq_equal_or_exists_test compares
  · exact ⟨_, (tells_equal_iff _).mpr rfl⟩
  · exact ⟨_, (tells_iff_of_ordered ordered _ found).mpr rfl⟩

end

theorem exists_ordered_of_tells_less (present : left.bare ≠ .null) (present' : right.bare ≠ .null)
    {truth : Bool} (told : less.Tells left right truth) :
    ∃ ordering, left.comparison right = .ordered ordering := by
  rw [tells_iff rfl, Operator.compareBy] at told
  cases compared : left.comparison right with
  | ordered ordering => exact ⟨ordering, rfl⟩
  -- Only a null is answered without an ordering; values of different kinds are an error.
  | unknown => exact absurd compared (Value.comparison_ne_unknown present present')
  | incomparable => rw [compared] at told; cases told

theorem tells_less_true_iff :
    less.Tells left right true ↔ left.comparison right = .ordered .lt := by
  -- Without an ordering the answer is false or a failure.
  cases compared : left.comparison right with
  | ordered ordering =>
    rw [tells_less_iff compared]
    cases ordering <;> simp
  | unknown | incomparable =>
    rw [tells_iff rfl, Operator.compareBy, compared]
    exact iff_of_false nofun nofun

end BinaryOperator

/-- Just one of less, equal and greater holds, and the other operators of order mean one of two of
them. -/
structure Value.Consistent (left right : Value) : Prop where
  one : less.Tells left right true ∧ equal.Tells left right false ∧ greater.Tells left right false ∨
    less.Tells left right false ∧ equal.Tells left right true ∧ greater.Tells left right false ∨
    less.Tells left right false ∧ equal.Tells left right false ∧ greater.Tells left right true
  lessOrEqual_iff : lessOrEqual.Tells left right true ↔
    less.Tells left right true ∨ equal.Tells left right true
  greaterOrEqual_iff : greaterOrEqual.Tells left right true ↔
    greater.Tells left right true ∨ equal.Tells left right true

namespace Value

variable {left right : Value} {ordering : Ordering}

theorem consistent_of_equals (ordered : left.comparison right = .ordered ordering)
    (same : left.equals right = ordering.isEq) : left.Consistent right := by
  constructor <;>
    simp only [BinaryOperator.tells_less_iff ordered, BinaryOperator.tells_greater_iff ordered,
      BinaryOperator.tells_lessOrEqual_iff ordered, BinaryOperator.tells_greaterOrEqual_iff ordered,
      BinaryOperator.tells_equal_iff, same] <;>
    cases ordering <;> decide

/-- Amounts that are equal but for their currencies are ordered as equal without being equal. -/
theorem EqualInTwoCurrencies.tells (equal : left.EqualInTwoCurrencies right) :
    less.Tells left right false ∧ BinaryOperator.equal.Tells left right false ∧
      greater.Tells left right false ∧ lessOrEqual.Tells left right true ∧
      greaterOrEqual.Tells left right true := by
  have unequal : left.equals right = false :=
    Bool.eq_false_iff.mpr fun same => ((equals_iff_of_ordered equal.ordered).mp same).2 equal
  exact ⟨(BinaryOperator.tells_less_iff equal.ordered _).mpr rfl,
    (BinaryOperator.tells_equal_iff _).mpr unequal,
    (BinaryOperator.tells_greater_iff equal.ordered _).mpr rfl,
    (BinaryOperator.tells_lessOrEqual_iff equal.ordered _).mpr rfl,
    (BinaryOperator.tells_greaterOrEqual_iff equal.ordered _).mpr rfl⟩

theorem consistent_iff_of_ordered (ordered : left.comparison right = .ordered ordering) :
    left.Consistent right ↔ ¬ left.EqualInTwoCurrencies right := by
  constructor
  · -- "At most" holds without either of the two answers that it is made of.
    intro consistent equal
    obtain ⟨notLess, notEqual, _, lessOrEqual, _⟩ := equal.tells
    rcases consistent.lessOrEqual_iff.mp lessOrEqual with isLess | isEqual
    · exact absurd (isLess.unique notLess) nofun
    · exact absurd (isEqual.unique notEqual) nofun
  · intro apart
    refine consistent_of_equals ordered (Bool.eq_iff_iff.mpr ?_)
    rw [equals_iff_of_ordered ordered, and_iff_left apart, Ordering.isEq_iff_eq_eq]

end Value

/-- An operator of order or equality gives what it tells of the values of its operands. If these
are not null and "less" does not fail on them, no such operator fails, and the answers fit together,
unless the values are amounts of money that are equal but for their currencies: then none of "less",
"equal" and "greater" holds, but both of the others do. And "less" is transitive. -/
theorem comparison_agrees_with_equality (left right : Value) :
    (∀ (machine : Machine) (first second : Expression) (scope : Scope) (levels : Nat)
      (notes notes' : List Diagnostic),
      machine.evaluate first scope levels = ⟨.ok left, notes⟩ →
      machine.evaluate second scope levels = ⟨.ok right, notes'⟩ →
      ∀ operator ∈ comparing, ∀ truth,
        machine.evaluate (.binary operator first second) scope (levels + 1)
          = ⟨.ok (.bool truth), notes ++ notes'⟩ ↔ operator.Tells left right truth) ∧
    (left.bare ≠ .null → right.bare ≠ .null → ∀ truth, less.Tells left right truth →
      (∀ operator ∈ comparing, ∃ truth, operator.Tells left right truth) ∧
      (left.Consistent right ↔ ¬ left.EqualInTwoCurrencies right) ∧
      (left.EqualInTwoCurrencies right →
        less.Tells left right false ∧ equal.Tells left right false ∧
          greater.Tells left right false ∧ lessOrEqual.Tells left right true ∧
          greaterOrEqual.Tells left right true)) ∧
    ∀ middle : Value, less.Tells left middle true → less.Tells middle right true →
      less.Tells left right true := by
  refine ⟨?operators, ?answers, ?transitive⟩
  case operators =>
    intro machine first second scope levels notes notes' atFirst atSecond operator compares truth
    obtain ⟨operation, found⟩ := BinaryOperator.exists_operation compares
    rw [machine.evaluate_of_operation found atFirst atSecond, BinaryOperator.tells_iff found,
      Traced.mk.injEq, and_iff_left rfl]
  case answers =>
    intro present present' truth told
    obtain ⟨ordering, ordered⟩ :=
      BinaryOperator.exists_ordered_of_tells_less present present' told
    exact ⟨fun _ => BinaryOperator.exists_tells ordered, Value.consistent_iff_of_ordered ordered,
      Value.EqualInTwoCurrencies.tells⟩
  case transitive =>
    intro middle first second
    rw [BinaryOperator.tells_less_true_iff] at first second ⊢
    exact Value.lt_trans first second

/-- A day comes before its own morning, and that before the next day, which is optional. -/
theorem comparison_agrees_with_equality_of_days :
    let day : Value := .date ⟨2024, 1, 1, by decide⟩
    let morning : Value := .dateTime ⟨⟨2024, 1, 1, by decide⟩, ⟨8, 0, 0, 0, by decide⟩⟩
    let next : Value := .present (.date ⟨2024, 1, 2, by decide⟩)
    let run (operator : BinaryOperator) (left right : Value) : Traced Value :=
      (Evaluator.fixed.machine ⟨.this, []⟩ ⟨.null, [], []⟩ .fixed).evaluate
        (.binary operator (.literal left) (.literal right)) ⟨.null, []⟩ 2
    day.bare ≠ .null ∧ morning.bare ≠ .null ∧ less.Tells day morning true ∧
      less.Tells morning next true ∧ day.Consistent morning ∧ less.Tells day next true ∧
      run .less day next = ⟨.ok (.bool true), []⟩ := by
  intro day morning next run
  obtain ⟨_, answers, _⟩ := comparison_agrees_with_equality day morning
  obtain ⟨operators, _, transitive⟩ := comparison_agrees_with_equality day next
  have first : less.Tells day morning true := ⟨_, rfl, rfl⟩
  have second : less.Tells morning next true := ⟨_, rfl, rfl⟩
  have apart : ¬ day.EqualInTwoCurrencies morning := fun ⟨_, _, _, _, isMoney, _⟩ => nomatch isMoney
  obtain ⟨_, consistent, _⟩ := answers nofun nofun true first
  have third := transitive morning first second
  exact ⟨nofun, nofun, first, second, consistent.mpr apart, third,
    (operators _ _ _ _ _ [] [] rfl rfl _ (.tail _ (.head _)) _).mpr third⟩

/-- Five dollars are at most and at least five euros, but they are neither less, nor equal, nor
greater. -/
theorem order_inconsistent_in_two_currencies :
    let five : Decimal := { mantissa := 5, scale := 0 }
    let dollars : Value := .money five "USD"
    let euros : Value := .money five "EUR"
    (less.Tells dollars euros false ∧ equal.Tells dollars euros false ∧
      greater.Tells dollars euros false) ∧
      (lessOrEqual.Tells dollars euros true ∧ greaterOrEqual.Tells dollars euros true) ∧
      ¬ dollars.Consistent euros := by
  intro five dollars euros
  have same : Arithmetic.equal five five := Value.sameAmount_iff.mpr rfl
  have equal : dollars.EqualInTwoCurrencies euros := ⟨_, _, _, _, rfl, rfl, same, by decide⟩
  obtain ⟨notLess, notEqual, notGreater, atMost, atLeast⟩ := equal.tells
  refine ⟨⟨notLess, notEqual, notGreater⟩, ⟨atMost, atLeast⟩, fun consistent => ?_⟩
  exact (Value.consistent_iff_of_ordered equal.ordered).mp consistent equal

end Rulebook

import Rulebook.Proofs.Evaluation.Run
import Rulebook.Proofs.Evaluation.Simulation
import Rulebook.Proofs.Value.Equality

/-!
# The operator of equality

The operator runs both of its operands and tells whether their values are equal, so the laws of
equality are laws of expressions.
-/
namespace Rulebook

open List (Forall₂)
open Value

/-- What the operator tells if both of its operands have values. -/
theorem Machine.evaluate_equal (machine : Machine) {first second : Expression} {scope : Scope}
    {levels : Nat} {left right : Value} {notes notes' : List Diagnostic}
    (atFirst : machine.evaluate first scope levels = ⟨.ok left, notes⟩)
    (atSecond : machine.evaluate second scope levels = ⟨.ok right, notes'⟩) :
    machine.evaluate (.binary .equal first second) scope (levels + 1)
      = ⟨.ok (.bool (left.equals right)), notes ++ notes'⟩ := by
  have found : BinaryOperator.equal.operation? =
      some fun left right => .ok (.bool (left.equals right)) := rfl
  exact machine.evaluate_of_operation found atFirst atSecond

/-- The laws of equality. The operator tells whether the values of its operands are equal. Equality
is reflexive and symmetric, and two values that are equal to a third one are equal just if no two
amounts of money in the same place of them are in different currencies. It looks through optional
layers. Lists are equal just if their items are so pairwise; maps are equal only if they have the
same names with equal values, and always if they have the same names with values of one content. -/
theorem equality_laws :
    (∀ (machine : Machine) (first second : Expression) (scope : Scope) (levels : Nat)
      (left right : Value) (notes notes' : List Diagnostic),
      machine.evaluate first scope levels = ⟨.ok left, notes⟩ →
      machine.evaluate second scope levels = ⟨.ok right, notes'⟩ →
      machine.evaluate (.binary .equal first second) scope (levels + 1)
        = ⟨.ok (.bool (left.equals right)), notes ++ notes'⟩) ∧
    (∀ value : Value, value.KeysDistinct → value.equals value) ∧
    (∀ left right : Value, left.KeysDistinct → right.KeysDistinct →
      left.equals right = right.equals left) ∧
    (∀ left middle right : Value, left.equals middle → middle.equals right →
      (left.equals right ↔ left.CurrenciesAgree right)) ∧
    (∀ left right : Value, (present left).equals right = left.equals right ∧
      left.equals (present right) = left.equals right ∧
      absent.equals right = null.equals right ∧ left.equals absent = left.equals null) ∧
    (∀ lefts rights : List Value,
      (list lefts).equals (list rights) ↔ Forall₂ (equals · ·) lefts rights) ∧
    ∀ lefts rights : Table Value, lefts.Distinct → rights.Distinct →
      ((map lefts).equals (map rights) →
        (∀ name, name ∈ Table.names lefts ↔ name ∈ Table.names rights) ∧
          ∀ name left right, Table.find? name lefts = some left →
            Table.find? name rights = some right → left.equals right) ∧
      ((∀ name, name ∈ Table.names lefts ↔ name ∈ Table.names rights) →
        (∀ name left right, Table.find? name lefts = some left →
          Table.find? name rights = some right → left.sameAs right) →
        (map lefts).equals (map rights)) := by
  refine ⟨?operator, fun _ => equals_refl, fun _ _ => equals_comm,
    fun _ _ _ => equals_iff_of_middle, ?optional, fun _ _ => equals_list_iff, ?maps⟩
  case operator =>
    exact fun machine _ _ _ _ _ _ _ _ atFirst atSecond => machine.evaluate_equal atFirst atSecond
  case optional =>
    exact fun left right =>
      ⟨rfl, equals_present_right left right, rfl, equals_absent_right left⟩
  case maps =>
    exact fun lefts rights distinct distinct' =>
      ⟨values_of_equals_map distinct, equals_map_of_values distinct distinct'⟩

/-- Five dollars that are optional and five euros are equal to a plain five each, at the head of a
list. As their currencies differ there, the lists with them are not equal to each other. -/
theorem equality_laws_of_amounts :
    let five : Decimal := { mantissa := 5, scale := 0 }
    let listed (head : Value) : Value := list [head, map [("rate", number .one)]]
    let dollars := listed (present (money five "USD"))
    let plain := listed (number five)
    let euros := listed (money five "EUR")
    let run (left right : Value) : Traced Value :=
      (Evaluator.fixed.machine ⟨.this, []⟩ ⟨.null, [], []⟩ .fixed).evaluate
        (.binary .equal (.literal left) (.literal right)) ⟨.null, []⟩ 2
    dollars.KeysDistinct ∧ dollars.equals dollars ∧ dollars.equals plain ∧
      plain.equals dollars ∧ plain.equals euros ∧ ¬ dollars.equals euros ∧
      run dollars plain = ⟨.ok (.bool true), []⟩ ∧ run dollars euros = ⟨.ok (.bool false), []⟩ := by
  intro five listed dollars plain euros run
  obtain ⟨operator, reflexive, symmetric, transitive, optional, lists, maps⟩ := equality_laws
  have rates : (map [("rate", number .one)]).KeysDistinct :=
    .intro (List.pairwise_singleton _ _) (List.forall_mem_singleton.mpr (.of_scalar rfl rfl))
  have distinct (head : Value) (scalar : head.KeysDistinct) : (listed head).KeysDistinct :=
    .intro List.nodup_nil (List.forall_mem_cons.mpr ⟨scalar, List.forall_mem_singleton.mpr rates⟩)
  have distinctDollars : dollars.KeysDistinct :=
    distinct _ (.intro List.nodup_nil (List.forall_mem_singleton.mpr (.of_scalar rfl rfl)))
  have distinctPlain : plain.KeysDistinct := distinct _ (.of_scalar rfl rfl)
  -- The heads are equal, and the maps behind them are the same.
  have five_equal : Arithmetic.equal five five := sameAmount_iff.mpr rfl
  have behind {head head' : Value} (equal : head.equals head') :
      (listed head).equals (listed head') :=
    (lists _ _).mpr (.cons equal (.cons (reflexive _ rates) .nil))
  have first : dollars.equals plain :=
    behind ((optional (money five "USD") (number five)).1.trans five_equal)
  have second : plain.equals euros := behind five_equal
  have apart : ¬ dollars.equals euros := by
    rw [transitive _ _ _ first second]
    intro agree
    exact absurd (agree [0] "USD" rfl "EUR" rfl) (by decide)
  refine ⟨distinctDollars, reflexive _ distinctDollars, first,
    (symmetric _ _ distinctDollars distinctPlain).symm.trans first, second, apart, ?_, ?_⟩
  · rw [← first]
    exact operator _ _ _ _ _ _ _ [] [] rfl rfl
  · rw [← Bool.eq_false_iff.mpr apart]
    exact operator _ _ _ _ _ _ _ [] [] rfl rfl

/-- Five is equal to five dollars and to five euros, which are not equal to each other; and it is
equal to an optional five, but a map that holds the one is not equal to a map that holds the
other. -/
theorem equality_neither_transitive_nor_kept_by_maps :
    let five : Decimal := { mantissa := 5, scale := 0 }
    let dollars : Value := money five "USD"
    let euros : Value := money five "EUR"
    (dollars.equals (number five) ∧ (number five).equals euros ∧ ¬ dollars.equals euros) ∧
      (number five).equals (present (number five)) ∧
      ¬ (map [("amount", number five)]).equals (map [("amount", present (number five))]) := by
  intro five dollars euros
  have same : Arithmetic.equal five five := sameAmount_iff.mpr rfl
  have differ : ¬ dollars.equals euros := by decide
  have apart : ¬ (map [("amount", number five)]).equals
      (map [("amount", present (number five))]) := by decide
  exact ⟨⟨same, same, differ⟩, same, apart⟩

end Rulebook

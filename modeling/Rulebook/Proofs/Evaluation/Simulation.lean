import Rulebook.Evaluation.Evaluator
import Rulebook.Proofs.Evaluation.Agreement
import Rulebook.Proofs.Evaluation.InTurn

/-!
# Evaluations that agree

Two machines agree if each of their primitive steps does: reading a property, listing elements,
looking up an item, calling a function, applying an operator. There is one lemma for every kind of
expression, which compares two evaluations of it by those of its parts. For one expression they are
put together here: evaluated in scopes that correspond, it runs alike on machines that agree, also
if the second one has levels to spare and nothing is asked where the first one runs out of them.
-/
namespace Rulebook

/-- The operation on the values of both operands, for the operators that always run both of them
and look at nothing else. -/
def BinaryOperator.operation? (operator : BinaryOperator) :
    Option (Value → Value → Except Halt Value) :=
  match operator with
  | .add => some Operator.plus
  | .subtract => some (Operator.calculate operator.symbol Arithmetic.subtract)
  | .multiply => some (Operator.calculate operator.symbol Arithmetic.multiply)
  | .divide => some (Operator.calculate operator.symbol Arithmetic.divide)
  | .modulus => some (Operator.calculate operator.symbol Arithmetic.modulus)
  | .equal => some fun left right => .ok (.bool (left.equals right))
  | .unequal => some fun left right => .ok (.bool (!left.equals right))
  | .less => some (Operator.compareBy operator.symbol Ordering.isLT)
  | .lessOrEqual => some (Operator.compareBy operator.symbol Ordering.isLE)
  | .greater => some (Operator.compareBy operator.symbol Ordering.isGT)
  | .greaterOrEqual => some (Operator.compareBy operator.symbol Ordering.isGE)
  | .power | .and | .or | .within => none

/-- Such an operator runs both operands and applies its operation. -/
theorem Machine.combine_of_operation (machine : Machine) {operator : BinaryOperator}
    {operation : Value → Value → Except Halt Value} (found : operator.operation? = some operation)
    (left : Traced Value) (right : Unit → Traced Value) :
    machine.combine operator left right = Machine.onBoth left right operation := by
  cases operator <;> cases found <;> rfl

/-- With both operands known, such an expression is its operation on their values. -/
theorem Machine.evaluate_of_operation (machine : Machine) {operator : BinaryOperator}
    {operation : Value → Value → Except Halt Value} (found : operator.operation? = some operation)
    {first second : Expression} {scope : Scope} {levels : Nat} {left right : Value}
    {notes notes' : List Diagnostic}
    (atFirst : machine.evaluate first scope levels = ⟨.ok left, notes⟩)
    (atSecond : machine.evaluate second scope levels = ⟨.ok right, notes'⟩) :
    machine.evaluate (.binary operator first second) scope (levels + 1)
      = ⟨operation left right, notes ++ notes'⟩ := by
  rw [evaluate, combine_of_operation machine found]
  simp only [onBoth, atFirst, atSecond, Traced.bind_ok, Traced.ofExcept]
  cases operation left right with
  | ok value => simp only [Traced.pure, List.append_nil]
  | error halt => simp only [Traced.fail, List.append_nil]

/-- The relation of values is kept by everything that evaluation does to values by itself, and
ordinary failures are alike. -/
structure Agreement.Lawful (agreement : Agreement) : Prop where
  ordinary : ∀ halt : Halt, halt.IsOrdinary → agreement.halts halt halt
  null : agreement.values .null .null
  bool : ∀ truth, agreement.values (.bool truth) (.bool truth)
  list : ∀ {lefts rights}, List.Forall₂ agreement.values lefts rights →
    agreement.values (.list lefts) (.list rights)
  bare : ∀ {left right}, agreement.values left right → agreement.values left.bare right.bare
  typeName : ∀ {left right}, agreement.values left right → left.typeName = right.typeName
  equals : ∀ {left right left' right'}, agreement.values left right →
    agreement.values left' right' → left.equals left' = right.equals right'
  condition : ∀ {left right}, agreement.values left right → ∀ operator,
    Alike Halt.IsOrdinary Eq (Operator.condition operator left) (Operator.condition operator right)
  unary : ∀ {left right}, agreement.values left right → ∀ operator,
    Alike Halt.IsOrdinary agreement.values (Operator.applyUnary operator left)
      (Operator.applyUnary operator right)
  binary : ∀ {left right left' right'}, agreement.values left right →
    agreement.values left' right' → ∀ {operator operation},
    BinaryOperator.operation? operator = some operation →
      Alike Halt.IsOrdinary agreement.values (operation left left') (operation right right')
  power : ∀ {left right left' right'}, agreement.values left right →
    agreement.values left' right' → ∀ symbol powers,
      Alike Halt.IsOrdinary agreement.values
        (Operator.calculate symbol (Arithmetic.power powers) left left')
        (Operator.calculate symbol (Arithmetic.power powers) right right')

namespace Machine

open Traced (Follows)

/-- The primitive steps of two machines agree, at any values that are related. -/
structure StepsAgree (agreement : Agreement) (first second : Machine) : Prop where
  lawful : agreement.Lawful
  powers : first.evaluator.powers = second.evaluator.powers
  property : ∀ {left right}, agreement.values left right → ∀ name,
    Alike (fun _ => True) agreement.values (first.evaluator.access.get left name)
      (second.evaluator.access.get right name)
  elements : ∀ {left right}, agreement.values left right →
    Alike (fun _ => True) (List.Forall₂ agreement.values)
      (first.evaluator.adapters.elements left) (second.evaluator.adapters.elements right)
  item : ∀ {left right left' right'}, agreement.values left right →
    agreement.values left' right' →
      Follows agreement agreement.values (first.itemOf left left') (second.itemOf right right')
  call : ∀ name {lefts rights}, List.Forall₂ agreement.values lefts rights →
    Follows agreement agreement.values (first.callFunction name lefts)
      (second.callFunction name rights)

/-- Where the levels run out, two machines that agree in their steps end alike as well. -/
structure Agree (agreement : Agreement) (first second : Machine) : Prop
    extends StepsAgree agreement first second where
  limit : agreement.waived (.technical (.recursionLimit first.evaluator.maxDepth)) ∨
    agreement.halts (.technical (.recursionLimit first.evaluator.maxDepth))
      (.technical (.recursionLimit second.evaluator.maxDepth))

/-- Where the first machine runs out of levels, nothing is asked of the second one, or it has no
level to spare either and they end alike. -/
def LimitsAgree (agreement : Agreement) (first second : Machine) (spare : Nat) : Prop :=
  agreement.waived (.technical (.recursionLimit first.evaluator.maxDepth)) ∨
    spare = 0 ∧ agreement.halts (.technical (.recursionLimit first.evaluator.maxDepth))
      (.technical (.recursionLimit second.evaluator.maxDepth))

/-- Machines that agree do so where the levels run out, without any to spare. -/
theorem Agree.limits {agreement : Agreement} {first second : Machine}
    (agree : Agree agreement first second) : LimitsAgree agreement first second 0 :=
  agree.limit.imp_right fun same => ⟨rfl, same⟩

/-- A relation of scopes in which names are read alike, and that is kept when an element becomes
the object in scope or is bound to a name. -/
structure ScopesAgree (agreement : Agreement) (first second : Machine)
    (scopes : Scope → Scope → Prop) : Prop where
  literal : ∀ value, agreement.values value value
  this : ∀ {left right}, scopes left right → agreement.values left.this right.this
  name : ∀ {left right}, scopes left right → ∀ name,
    Follows agreement agreement.values (first.readName left name) (second.readName right name)
  enter : ∀ {left right element element'}, scopes left right →
    agreement.values element element' →
      scopes { left with this := element } { right with this := element' }
  bind : ∀ {left right element element'}, scopes left right →
    agreement.values element element' → ∀ name,
      scopes { left with bound := (name, element) :: left.bound }
        { right with bound := (name, element') :: right.bound }

/-- Without a level every expression fails at the limit. -/
theorem evaluate_zero (machine : Machine) (expression : Expression) (scope : Scope) :
    machine.evaluate expression scope 0
      = .failWith (.recursionLimit machine.evaluator.maxDepth) := by
  cases expression <;> rfl

section

variable {agreement : Agreement} {first second : Machine} {left right : Scope} {level level' : Nat}

/-- Where the first machine has no level left, the second one follows as far as is asked. -/
theorem LimitsAgree.evaluate_zero {spare : Nat} (limits : LimitsAgree agreement first second spare)
    (expression expression' : Expression) :
    Follows agreement agreement.values (first.evaluate expression left 0)
      (second.evaluate expression' right spare) := by
  rw [Machine.evaluate_zero]
  rcases limits with waived | ⟨rfl, same⟩
  · exact .waived _ _ waived
  · rw [Machine.evaluate_zero]
    exact .halt _ same

/-- Without levels, machines that agree end alike, whatever the expressions are. -/
theorem Agree.evaluate_zero (agree : Agree agreement first second)
    (expression expression' : Expression) :
    Follows agreement agreement.values (first.evaluate expression left 0)
      (second.evaluate expression' right 0) :=
  agree.limits.evaluate_zero expression expression'

/-- Expressions run alike in turn if the first ones do and the others do. -/
theorem Agree.evaluateAll_cons {operand operand' : Expression} {parts parts' : List Expression}
    (runs : Follows agreement agreement.values (first.evaluate operand left level)
      (second.evaluate operand' right level'))
    (rest : Follows agreement (List.Forall₂ agreement.values)
      (first.evaluateAll parts left level) (second.evaluateAll parts' right level')) :
    Follows agreement (List.Forall₂ agreement.values)
      (first.evaluateAll (operand :: parts) left level)
      (second.evaluateAll (operand' :: parts') right level') :=
  runs.bind fun _ _ same => rest.bind fun _ _ sames => .pure (.cons same sames)

namespace StepsAgree

variable (agree : StepsAgree agreement first second)
include agree

/-- Conditions run alike if what they are made of does. -/
theorem holds (operator : String) {condition condition' : Traced Value}
    (runs : Follows agreement agreement.values condition condition') :
    Follows agreement Eq (Machine.holds operator condition)
      (Machine.holds operator condition') :=
  runs.bind fun _ _ same => .ofExcept agree.lawful.ordinary (agree.lawful.condition same operator)

/-- Reading a property runs alike on related objects. -/
theorem lift_property {object object' : Value} (same : agreement.values object object')
    (name : String) :
    Follows agreement agreement.values
      (.lift .property (first.evaluator.access.get object name))
      (.lift .property (second.evaluator.access.get object' name)) :=
  .lift agree.lawful.ordinary (agree.property same name)

/-- Listing elements runs alike on related collections. -/
theorem elementsOf {value value' : Value} (same : agreement.values value value') :
    Follows agreement (List.Forall₂ agreement.values) (first.elements value)
      (second.elements value') :=
  .lift agree.lawful.ordinary (agree.elements same)

/-- An operation on both operands runs alike if it is so on related values. -/
theorem onBoth {operation : Value → Value → Except Halt Value}
    (alike : ∀ {left right left' right'}, agreement.values left right →
      agreement.values left' right' →
        Alike Halt.IsOrdinary agreement.values (operation left left') (operation right right'))
    {run run' : Traced Value} {later later' : Unit → Traced Value}
    (runs : Follows agreement agreement.values run run')
    (afterwards : Follows agreement agreement.values (later ()) (later' ())) :
    Follows agreement agreement.values (Machine.onBoth run later operation)
      (Machine.onBoth run' later' operation) :=
  runs.bind fun _ _ same => afterwards.bind fun _ _ same' =>
    .ofExcept agree.lawful.ordinary (alike same same')

/-- Powers run alike, since both machines have the same library of them. -/
theorem power {run run' : Traced Value} {later later' : Unit → Traced Value}
    (runs : Follows agreement agreement.values run run')
    (afterwards : Follows agreement agreement.values (later ()) (later' ())) :
    Follows agreement agreement.values (first.combine .power run later)
      (second.combine .power run' later') := by
  simp only [Machine.combine, agree.powers]
  exact agree.onBoth (fun same same' => agree.lawful.power same same' _ _) runs afterwards

/-- Membership runs alike, as it asks for equality only. -/
theorem within {run run' : Traced Value} {later later' : Unit → Traced Value}
    (runs : Follows agreement agreement.values run run')
    (afterwards : Follows agreement agreement.values (later ()) (later' ())) :
    Follows agreement agreement.values (first.combine .within run later)
      (second.combine .within run' later') := by
  refine runs.bind fun element element' same => afterwards.bind fun _ _ same' =>
    (agree.elementsOf same').bind fun members members' listed => ?_
  have found : members.any element.equals = members'.any element'.equals := by
    -- The members are compared in turn, and equality answers alike for each.
    induction listed with
    | nil => rfl
    | cons head _ ih => simp only [List.any_cons, agree.lawful.equals same head, ih]
  rw [found]
  exact .pure (agree.lawful.bool _)

/-- The right operand of a conjunction or disjunction is compared only where both runs reach it. -/
theorem combine (operator : BinaryOperator) {run run' : Traced Value}
    {later later' : Unit → Traced Value} (runs : Follows agreement agreement.values run run')
    (afterwards : Follows agreement agreement.values (later ()) (later' ())) :
    Follows agreement agreement.values (first.combine operator run later)
      (second.combine operator run' later') := by
  cases found : operator.operation? with
  | some operation =>
    rw [combine_of_operation first found, combine_of_operation second found]
    exact agree.onBoth (fun same same' => agree.lawful.binary same same' found) runs afterwards
  | none =>
    have settled (symbol : String) : Follows agreement agreement.values
        (Machine.holds symbol (later ()) >>= fun truth => Pure.pure (Value.bool truth))
        (Machine.holds symbol (later' ()) >>= fun truth => Pure.pure (Value.bool truth)) :=
      (agree.holds symbol afterwards).bind fun truth _ equal =>
        equal ▸ .pure (agree.lawful.bool truth)
    -- The remaining operators look at the left value before they run the right operand.
    cases operator with
    | and =>
      refine (agree.holds _ runs).bind fun truth _ equal => ?_
      subst equal
      cases truth with
      | true => exact settled _
      | false => exact .pure (agree.lawful.bool false)
    | or =>
      refine (agree.holds _ runs).bind fun truth _ equal => ?_
      subst equal
      cases truth with
      | true => exact .pure (agree.lawful.bool true)
      | false => exact settled _
    | power => exact agree.power runs afterwards
    | within => exact agree.within runs afterwards
    | _ => cases found

variable {operand operand' other other' : Expression} {parts parts' : List Expression}

theorem evaluate_property (name : String)
    (object : Follows agreement agreement.values (first.evaluate operand left level)
      (second.evaluate operand' right level')) :
    Follows agreement agreement.values
      (first.evaluate (.property operand name) left (level + 1))
      (second.evaluate (.property operand' name) right (level' + 1)) :=
  object.bind fun _ _ same => agree.lift_property same name

theorem evaluate_index
    (base : Follows agreement agreement.values (first.evaluate operand left level)
      (second.evaluate operand' right level'))
    (position : Follows agreement agreement.values (first.evaluate other left level)
      (second.evaluate other' right level')) :
    Follows agreement agreement.values
      (first.evaluate (.index operand other) left (level + 1))
      (second.evaluate (.index operand' other') right (level' + 1)) :=
  base.bind fun _ _ same => position.bind fun _ _ same' => agree.item same same'

theorem evaluate_unary (operator : UnaryOperator)
    (runs : Follows agreement agreement.values (first.evaluate operand left level)
      (second.evaluate operand' right level')) :
    Follows agreement agreement.values
      (first.evaluate (.unary operator operand) left (level + 1))
      (second.evaluate (.unary operator operand') right (level' + 1)) :=
  runs.bind fun _ _ same => .ofExcept agree.lawful.ordinary (agree.lawful.unary same operator)

/-- The right operand is run by the second machine only where the first one runs it. -/
theorem evaluate_binary (operator : BinaryOperator)
    (runs : Follows agreement agreement.values (first.evaluate operand left level)
      (second.evaluate operand' right level'))
    (afterwards : Follows agreement agreement.values (first.evaluate other left level)
      (second.evaluate other' right level')) :
    Follows agreement agreement.values
      (first.evaluate (.binary operator operand other) left (level + 1))
      (second.evaluate (.binary operator operand' other') right (level' + 1)) :=
  agree.combine operator runs afterwards

theorem evaluate_call (name : String)
    (arguments : Follows agreement (List.Forall₂ agreement.values)
      (first.evaluateAll parts left level) (second.evaluateAll parts' right level')) :
    Follows agreement agreement.values (first.evaluate (.call name parts) left (level + 1))
      (second.evaluate (.call name parts') right (level' + 1)) :=
  arguments.bind fun _ _ same => agree.call name same

theorem evaluate_collection
    (items : Follows agreement (List.Forall₂ agreement.values)
      (first.evaluateAll parts left level) (second.evaluateAll parts' right level')) :
    Follows agreement agreement.values (first.evaluate (.collection parts) left (level + 1))
      (second.evaluate (.collection parts') right (level' + 1)) :=
  items.bind fun _ _ same => .pure (agree.lawful.list same)

/-- A filter runs alike if its predicate does with related elements as the objects in scope. -/
theorem evaluate_filter
    (source : Follows agreement agreement.values (first.evaluate operand left level)
      (second.evaluate operand' right level'))
    (predicate : ∀ element element', agreement.values element element' →
      Follows agreement agreement.values
        (first.evaluate other { left with this := element } level)
        (second.evaluate other' { right with this := element' } level')) :
    Follows agreement agreement.values
      (first.evaluate (.filter operand other) left (level + 1))
      (second.evaluate (.filter operand' other') right (level' + 1)) :=
  source.bind fun _ _ same => (agree.elementsOf same).bind fun _ _ listed =>
    (Follows.filterAll listed fun _ _ same => agree.holds "filter" (predicate _ _ same)).bind
      fun _ _ kept => .pure (agree.lawful.list kept)

/-- A comprehension runs alike if its body does with related elements bound; the names may differ.
-/
theorem evaluate_forEach (name name' : String)
    (source : Follows agreement agreement.values (first.evaluate operand left level)
      (second.evaluate operand' right level'))
    (body : ∀ element element', agreement.values element element' →
      Follows agreement agreement.values
        (first.evaluate other { left with bound := (name, element) :: left.bound } level)
        (second.evaluate other' { right with bound := (name', element') :: right.bound }
          level')) :
    Follows agreement agreement.values
      (first.evaluate (.forEach name operand other) left (level + 1))
      (second.evaluate (.forEach name' operand' other') right (level' + 1)) :=
  source.bind fun _ _ same => (agree.elementsOf same).bind fun _ _ listed =>
    (Follows.mapAll listed body).bind fun _ _ mapped => .pure (agree.lawful.list mapped)

/-- So does a quantifier, which stops at the same element. -/
theorem evaluate_quantified (quantifier : Quantifier) (name name' : String)
    (source : Follows agreement agreement.values (first.evaluate operand left level)
      (second.evaluate operand' right level'))
    (predicate : ∀ element element', agreement.values element element' →
      Follows agreement agreement.values
        (first.evaluate other { left with bound := (name, element) :: left.bound } level)
        (second.evaluate other' { right with bound := (name', element') :: right.bound }
          level')) :
    Follows agreement agreement.values
      (first.evaluate (.quantified quantifier name operand other) left (level + 1))
      (second.evaluate (.quantified quantifier name' operand' other') right (level' + 1)) :=
  source.bind fun _ _ same => (agree.elementsOf same).bind fun _ _ listed =>
    (Follows.search _ listed fun _ _ same => agree.holds "satisfies" (predicate _ _ same)).bind
      fun _ _ found => found ▸ .pure (agree.lawful.bool _)

theorem evaluate_ifThen
    (condition : Follows agreement agreement.values (first.evaluate operand left level)
      (second.evaluate operand' right level'))
    (consequence : Follows agreement agreement.values (first.evaluate other left level)
      (second.evaluate other' right level')) :
    Follows agreement agreement.values
      (first.evaluate (.ifThen operand other) left (level + 1))
      (second.evaluate (.ifThen operand' other') right (level' + 1)) := by
  refine (agree.holds "if" condition).bind fun truth _ equal => ?_
  subst equal
  cases truth with
  | true => exact consequence
  | false => exact .pure agree.lawful.null

theorem evaluate_ifThenElse {last last' : Expression}
    (condition : Follows agreement agreement.values (first.evaluate operand left level)
      (second.evaluate operand' right level'))
    (consequence : Follows agreement agreement.values (first.evaluate other left level)
      (second.evaluate other' right level'))
    (alternative : Follows agreement agreement.values (first.evaluate last left level)
      (second.evaluate last' right level')) :
    Follows agreement agreement.values
      (first.evaluate (.ifThenElse operand other last) left (level + 1))
      (second.evaluate (.ifThenElse operand' other' last') right (level' + 1)) := by
  refine (agree.holds "if" condition).bind fun truth _ equal => ?_
  subst equal
  cases truth with
  | true => exact consequence
  | false => exact alternative

theorem evaluate_instanceOf (typeName : String)
    (runs : Follows agreement agreement.values (first.evaluate operand left level)
      (second.evaluate operand' right level')) :
    Follows agreement agreement.values
      (first.evaluate (.instanceOf operand typeName) left (level + 1))
      (second.evaluate (.instanceOf operand' typeName) right (level' + 1)) := by
  refine runs.bind fun _ _ same => ?_
  rw [agree.lawful.typeName (agree.lawful.bare same)]
  exact .pure (agree.lawful.bool _)

theorem evaluate_cast (typeName : String)
    (runs : Follows agreement agreement.values (first.evaluate operand left level)
      (second.evaluate operand' right level')) :
    Follows agreement agreement.values
      (first.evaluate (.cast typeName operand) left (level + 1))
      (second.evaluate (.cast typeName operand') right (level' + 1)) := by
  refine runs.bind fun value value' same => ?_
  have bare := agree.lawful.bare same
  rw [agree.lawful.typeName bare]
  -- The cast tests the name of the type only, and that is the same.
  by_cases kind : (value'.bare.typeName == typeName) = true
  · rw [if_pos kind, if_pos kind]
    exact .pure bare
  · rw [if_neg kind, if_neg kind]
    exact .pure agree.lawful.null

end StepsAgree

end

section

variable {agreement : Agreement} {first second : Machine} {scopes : Scope → Scope → Prop}

mutual

/-- One expression runs alike on machines that agree in their steps, in scopes that correspond. The
second machine may have levels to spare; how the first one ends without a level matters only if it
has fewer levels than the expression has. -/
theorem ScopesAgree.evaluate_sparing (corresponding : ScopesAgree agreement first second scopes)
    (agree : StepsAgree agreement first second) (spare : Nat) :
    ∀ (expression : Expression) (levels : Nat) {left right : Scope},
      (levels < expression.height → LimitsAgree agreement first second spare) →
      scopes left right → Follows agreement agreement.values
        (first.evaluate expression left levels) (second.evaluate expression right (spare + levels))
  | expression, 0, _, _, short, _ =>
    (short expression.height_pos).evaluate_zero expression expression
  | .literal value, _ + 1, _, _, _, _ => .pure (corresponding.literal value)
  | .this, _ + 1, _, _, _, same => .pure (corresponding.this same)
  | .identifier name, _ + 1, _, _, _, same => corresponding.name same name
  | .property base name, level + 1, _, _, short, same =>
    agree.evaluate_property name (corresponding.evaluate_sparing agree spare base level
      (fun fewer => short (by simp only [Expression.height]; omega)) same)
  | .index base position, level + 1, _, _, short, same =>
    agree.evaluate_index
      (corresponding.evaluate_sparing agree spare base level
        (fun fewer => short (by simp only [Expression.height]; omega)) same)
      (corresponding.evaluate_sparing agree spare position level
        (fun fewer => short (by simp only [Expression.height]; omega)) same)
  | .unary operator operand, level + 1, _, _, short, same =>
    agree.evaluate_unary operator (corresponding.evaluate_sparing agree spare operand level
      (fun fewer => short (by simp only [Expression.height]; omega)) same)
  | .binary operator operand other, level + 1, _, _, short, same =>
    agree.evaluate_binary operator
      (corresponding.evaluate_sparing agree spare operand level
        (fun fewer => short (by simp only [Expression.height]; omega)) same)
      (corresponding.evaluate_sparing agree spare other level
        (fun fewer => short (by simp only [Expression.height]; omega)) same)
  | .call name arguments, level + 1, _, _, short, same =>
    agree.evaluate_call name (corresponding.evaluateAll_sparing agree spare arguments level
      (fun fewer => short (by simp only [Expression.height]; omega)) same)
  | .collection items, level + 1, _, _, short, same =>
    agree.evaluate_collection (corresponding.evaluateAll_sparing agree spare items level
      (fun fewer => short (by simp only [Expression.height]; omega)) same)
  | .filter source predicate, level + 1, _, _, short, same =>
    agree.evaluate_filter
      (corresponding.evaluate_sparing agree spare source level
        (fun fewer => short (by simp only [Expression.height]; omega)) same)
      fun _ _ entered => corresponding.evaluate_sparing agree spare predicate level
        (fun fewer => short (by simp only [Expression.height]; omega))
        (corresponding.enter same entered)
  | .forEach name source body, level + 1, _, _, short, same =>
    agree.evaluate_forEach name name
      (corresponding.evaluate_sparing agree spare source level
        (fun fewer => short (by simp only [Expression.height]; omega)) same)
      fun _ _ bound => corresponding.evaluate_sparing agree spare body level
        (fun fewer => short (by simp only [Expression.height]; omega))
        (corresponding.bind same bound name)
  | .quantified quantifier name source predicate, level + 1, _, _, short, same =>
    agree.evaluate_quantified quantifier name name
      (corresponding.evaluate_sparing agree spare source level
        (fun fewer => short (by simp only [Expression.height]; omega)) same)
      fun _ _ bound => corresponding.evaluate_sparing agree spare predicate level
        (fun fewer => short (by simp only [Expression.height]; omega))
        (corresponding.bind same bound name)
  | .ifThen condition consequence, level + 1, _, _, short, same =>
    agree.evaluate_ifThen
      (corresponding.evaluate_sparing agree spare condition level
        (fun fewer => short (by simp only [Expression.height]; omega)) same)
      (corresponding.evaluate_sparing agree spare consequence level
        (fun fewer => short (by simp only [Expression.height]; omega)) same)
  | .ifThenElse condition consequence alternative, level + 1, _, _, short, same =>
    agree.evaluate_ifThenElse
      (corresponding.evaluate_sparing agree spare condition level
        (fun fewer => short (by simp only [Expression.height]; omega)) same)
      (corresponding.evaluate_sparing agree spare consequence level
        (fun fewer => short (by simp only [Expression.height]; omega)) same)
      (corresponding.evaluate_sparing agree spare alternative level
        (fun fewer => short (by simp only [Expression.height]; omega)) same)
  | .instanceOf operand typeName, level + 1, _, _, short, same =>
    agree.evaluate_instanceOf typeName (corresponding.evaluate_sparing agree spare operand level
      (fun fewer => short (by simp only [Expression.height]; omega)) same)
  | .cast typeName operand, level + 1, _, _, short, same =>
    agree.evaluate_cast typeName (corresponding.evaluate_sparing agree spare operand level
      (fun fewer => short (by simp only [Expression.height]; omega)) same)

theorem ScopesAgree.evaluateAll_sparing (corresponding : ScopesAgree agreement first second scopes)
    (agree : StepsAgree agreement first second) (spare : Nat) :
    ∀ (expressions : List Expression) (levels : Nat) {left right : Scope},
      (levels < Expression.heights expressions → LimitsAgree agreement first second spare) →
      scopes left right → Follows agreement (List.Forall₂ agreement.values)
        (first.evaluateAll expressions left levels)
        (second.evaluateAll expressions right (spare + levels))
  | [], _, _, _, _, _ => .pure .nil
  | expression :: rest, levels, _, _, short, same =>
    Agree.evaluateAll_cons
      (corresponding.evaluate_sparing agree spare expression levels
        (fun fewer => short (by simp only [Expression.heights]; omega)) same)
      (corresponding.evaluateAll_sparing agree spare rest levels
        (fun fewer => short (by simp only [Expression.heights]; omega)) same)

end

/-- One expression runs alike on machines that agree, in scopes that correspond. -/
theorem ScopesAgree.evaluate (corresponding : ScopesAgree agreement first second scopes)
    (agree : Agree agreement first second) (expression : Expression) (levels : Nat)
    {left right : Scope} (same : scopes left right) : Follows agreement agreement.values
      (first.evaluate expression left levels) (second.evaluate expression right levels) := by
  have follows := corresponding.evaluate_sparing agree.toStepsAgree 0 expression levels
    (fun _ => agree.limits) same
  rwa [Nat.zero_add] at follows

end

end Machine

end Rulebook

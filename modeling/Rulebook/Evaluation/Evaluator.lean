import Rulebook.Evaluation.Operator
import Rulebook.Evaluation.Property
import Rulebook.Evaluation.Traced
import Rulebook.Expression.Formula
import Rulebook.Extraction.Adapter
import Rulebook.Function.Library
import Rulebook.Template.Message

/-!
# Evaluation

An expression is evaluated over the data of an environment. A name is a bound element, else a
reference into another context if it is flagged, else a named variable, else a property of the
object in scope. Every level of nesting uses up one of the levels that the evaluator allows.
-/
namespace Rulebook

/-- How expressions are evaluated: the functions they may call, the reading and writing of
properties, the adapters of collections, the library that powers are taken from, and the number of
levels an expression may have. -/
structure Evaluator where
  functions : FunctionRegistry := .builtins
  access : PropertyAccess := .standard
  adapters : AdapterRegistry := .standard
  powers : PowerLibrary
  maxDepth : Nat := 256

/-- All defaults, over a library of powers. -/
def Evaluator.standard (powers : PowerLibrary) : Evaluator := { powers }

/-- What an expression is evaluated over. -/
structure Environment where
  data : Value
  named : Table Value := []
  crossContexts : Table Value := []

/-- The object in scope, and the bound elements, innermost first. -/
structure Scope where
  this : Value
  bound : List (String × Value) := []

/-- Everything that stays the same throughout one evaluation. -/
structure Machine where
  evaluator : Evaluator
  environment : Environment
  clock : Clock
  crossNames : List String

namespace Machine

/-- What a name stands for. -/
def readName (machine : Machine) (scope : Scope) (name : String) : Traced Value :=
  match Table.find? name scope.bound with
  | some value => .pure value
  | none =>
    -- A flagged name is never looked for in the data of this environment.
    if name ∈ machine.crossNames then
      match Table.find? name machine.environment.crossContexts with
      | some value => .pure value
      | none => .note (.unresolvedReference name) .null
    else
      match Table.find? name machine.environment.named with
      | some value => .pure value
      | none => .lift .property (machine.evaluator.access.get scope.this name)

/-- The elements that a comprehension runs over. -/
def elements (machine : Machine) (value : Value) : Traced (List Value) :=
  .lift .extraction (machine.evaluator.adapters.elements value)

/-- The item of a list at a whole position that is not negative; there is null beyond its end. -/
def itemAt (items : List Value) (position : Decimal) : Option Value :=
  match position.toInteger? with
  | some position =>
    if 0 ≤ position then some (items.getD position.toNat .null) else none
  | none => none

/-- What stands at a position or key of a value. -/
def itemOf (machine : Machine) (base position : Value) : Traced Value :=
  match machine.evaluator.adapters.unwrap base with
  | none => .pure .null
  | some target =>
    -- One layer around the base was removed above; around the position none of them matters.
    let position := position.bare
    let invalid := Traced.failWith (.invalidIndex target.typeName position.display)
    match target, position with
    | _, .null => .pure .null
    | .list items, .number amount =>
      match itemAt items amount with
      | some item => .pure item
      | none => invalid
    | .map entries, .text key => .pure ((Table.find? key entries).getD .null)
    | .entity _ _ _, .text key => .lift .property (machine.evaluator.access.get target key)
    | _, _ => invalid

/-- Calls a function; its skip ends the evaluation as a skip. -/
def callFunction (machine : Machine) (name : String) (arguments : List Value) : Traced Value :=
  match machine.evaluator.functions.find? name with
  | none => .failWith (.unknownFunction name)
  | some body =>
    match body arguments machine.clock with
    | .ok value => .pure value
    -- A function that skips ends the whole evaluation without an error.
    | .error (.skip reason) => .fail (.skip reason)
    | .error error => .failWith (.function name error)

/-- Evaluates a condition and reads it as a truth value. -/
def holds (operator : String) (condition : Traced Value) : Traced Bool := do
  .ofExcept (Operator.condition operator (← condition))

/-- Runs both operands, the left one first, and applies an operation to their values. -/
def onBoth (left : Traced Value) (right : Unit → Traced Value)
    (apply : Value → Value → Except Halt Value) : Traced Value := do
  let leftValue ← left
  let rightValue ← right ()
  .ofExcept (apply leftValue rightValue)

/-- Combines two operands. The right one of a conjunction or disjunction is not run when the left
one settles the answer. -/
def combine (machine : Machine) (operator : BinaryOperator) (left : Traced Value)
    (right : Unit → Traced Value) : Traced Value :=
  let symbol := operator.symbol
  match operator with
  | .add => onBoth left right Operator.plus
  | .subtract => onBoth left right (Operator.calculate symbol Arithmetic.subtract)
  | .multiply => onBoth left right (Operator.calculate symbol Arithmetic.multiply)
  | .divide => onBoth left right (Operator.calculate symbol Arithmetic.divide)
  | .modulus => onBoth left right (Operator.calculate symbol Arithmetic.modulus)
  | .power =>
    onBoth left right (Operator.calculate symbol (Arithmetic.power machine.evaluator.powers))
  | .equal => onBoth left right fun left right => .ok (.bool (left.equals right))
  | .unequal => onBoth left right fun left right => .ok (.bool (!left.equals right))
  | .less => onBoth left right (Operator.compareBy symbol Ordering.isLT)
  | .lessOrEqual => onBoth left right (Operator.compareBy symbol Ordering.isLE)
  | .greater => onBoth left right (Operator.compareBy symbol Ordering.isGT)
  | .greaterOrEqual => onBoth left right (Operator.compareBy symbol Ordering.isGE)
  | .and => do
    if ← holds symbol left then return .bool (← holds symbol (right ()))
    else return .bool false
  | .or => do
    if ← holds symbol left then return .bool true
    else return .bool (← holds symbol (right ()))
  -- Both operands run: the elements are those of the right one.
  | .within => do
    let element ← left
    let members ← machine.elements (← right ())
    return .bool (members.any element.equals)

mutual

/-- Evaluates an expression with a number of levels left. -/
def evaluate (machine : Machine) (expression : Expression) (scope : Scope) (levels : Nat) :
    Traced Value :=
  match levels with
  -- Out of levels: the limit is told as it was set, not as it is here.
  | 0 => .failWith (.recursionLimit machine.evaluator.maxDepth)
  | level + 1 =>
    match expression with
    | .literal value => .pure value
    | .this => .pure scope.this
    | .identifier name => machine.readName scope name
    | .property base name => do
      let object ← evaluate machine base scope level
      .lift .property (machine.evaluator.access.get object name)
    | .index base position => do
      let target ← evaluate machine base scope level
      let position ← evaluate machine position scope level
      machine.itemOf target position
    | .unary operator operand => do
      let value ← evaluate machine operand scope level
      .ofExcept (Operator.applyUnary operator value)
    | .binary operator left right =>
      machine.combine operator (evaluate machine left scope level) fun _ =>
        evaluate machine right scope level
    | .call name arguments => do
      machine.callFunction name (← evaluateAll machine arguments scope level)
    | .collection items => do
      return .list (← evaluateAll machine items scope level)
    -- The element becomes the object in scope; bound elements stay visible.
    | .filter source predicate => do
      let elements ← machine.elements (← evaluate machine source scope level)
      let kept ← Traced.filterAll (fun element =>
        holds "filter" (evaluate machine predicate { scope with this := element } level)) elements
      return .list kept
    | .forEach name source body => do
      let elements ← machine.elements (← evaluate machine source scope level)
      let mapped ← Traced.mapAll (fun element =>
        evaluate machine body { scope with bound := (name, element) :: scope.bound } level) elements
      return .list mapped
    | .quantified quantifier name source predicate => do
      let elements ← machine.elements (← evaluate machine source scope level)
      -- One element that satisfies settles "some", one that does not settles "every".
      let wanted := quantifier == .some
      let found ← Traced.search wanted (fun element =>
        holds "satisfies" (evaluate machine predicate
          { scope with bound := (name, element) :: scope.bound } level)) elements
      return .bool (found == wanted)
    | .ifThen condition consequence => do
      if ← holds "if" (evaluate machine condition scope level) then
        evaluate machine consequence scope level
      else return .null
    | .ifThenElse condition consequence alternative => do
      if ← holds "if" (evaluate machine condition scope level) then
        evaluate machine consequence scope level
      else evaluate machine alternative scope level
    | .instanceOf operand typeName => do
      let value ← evaluate machine operand scope level
      return .bool (value.bare.typeName == typeName)
    | .cast typeName operand => do
      let value ← evaluate machine operand scope level
      return if value.bare.typeName == typeName then value.bare else .null

/-- Evaluates expressions in order. -/
def evaluateAll (machine : Machine) (expressions : List Expression) (scope : Scope)
    (levels : Nat) : Traced (List Value) :=
  match expressions with
  | [] => .pure []
  | expression :: rest => do
    let value ← evaluate machine expression scope levels
    let values ← evaluateAll machine rest scope levels
    return value :: values

end

end Machine

/-- The result of an evaluation with its diagnostics. -/
structure Report where
  result : Except EvaluationError Value
  diagnostics : List Diagnostic

/-- One line that tells the result and the number of diagnostics. -/
def Report.text (explain : Explanation) (report : Report) : String :=
  let result := match report.result with
    | .ok value => "value: " ++ value.display
    | .error error => "error: " ++ error.message explain
  result ++ ", diagnostics: " ++ toString report.diagnostics.length

namespace Evaluator

/-- Names the formula that a halt ended. -/
def blame {α : Type} (formula : Formula) : Except Halt α → Except EvaluationError α
  | .ok value => .ok value
  | .error halt => .error ⟨formula.text, halt⟩

/-- Evaluates a formula; a literal is its own value, whatever the number of levels. -/
def run (evaluator : Evaluator) (formula : Formula) (environment : Environment) (clock : Clock) :
    Report :=
  match formula.literal? with
  | some value => ⟨.ok value, []⟩
  | none =>
    -- Names flagged in this formula are read from the other contexts.
    let machine : Machine := ⟨evaluator, environment, clock, formula.crossNames⟩
    let traced := machine.evaluate formula.expression { this := environment.data }
      evaluator.maxDepth
    ⟨blame formula traced.outcome, traced.diagnostics⟩

/-- The value of a formula. -/
def evaluate (evaluator : Evaluator) (formula : Formula) (environment : Environment)
    (clock : Clock) : Except EvaluationError Value :=
  (evaluator.run formula environment clock).result

/-- Whether a condition holds. -/
def holds (evaluator : Evaluator) (condition : Formula) (environment : Environment)
    (clock : Clock) : Except EvaluationError Bool := do
  let value ← evaluator.evaluate condition environment clock
  blame condition (Operator.condition "condition" value)

/-- The rendered values of a message's formulas. -/
def renderFormulas (evaluator : Evaluator) (template : MessageTemplate)
    (environment : Environment) (clock : Clock) : Except EvaluationError (List String) :=
  template.formulas.mapM fun formula => do
    return (← evaluator.evaluate formula environment clock).render

end Evaluator

end Rulebook

import Rulebook.Arithmetic.Power
import Rulebook.Evaluation.Failure
import Rulebook.Expression.Basic
import Rulebook.Value.Equality

/-!
# Operators on values

Operators look through optional layers. Null is false as a condition, makes arithmetic null, and
is neither less nor greater than anything.
-/
namespace Rulebook

namespace Operator

/-- The halt at an operand of a wrong type. -/
def mismatch (operator expected : String) (found : Value) : Halt :=
  .technical (.typeMismatch operator expected found.typeName)

/-- A condition: a boolean, or null for false. -/
def condition (operator : String) (value : Value) : Except Halt Bool :=
  match value.bare with
  | .bool truth => .ok truth
  | .null => .ok false
  | other => .error (mismatch operator "a boolean" other)

/-- Passes on a result of the number kernel. -/
def amount : Except ArithmeticError Decimal → Except Halt Value
  | .ok result => .ok (.number result)
  | .error error => .error (.technical (.arithmetic error))

/-- The numeric component of an operand that is no optional value. -/
def operand (symbol : String) (value : Value) : Except Halt Decimal :=
  match value.number? with
  | some amount => .ok amount
  | none => .error (mismatch symbol "a number" value)

def applyUnary (operator : UnaryOperator) (value : Value) : Except Halt Value :=
  match operator with
  | .negate =>
    match value.bare with
    | .null => .ok .null
    | other => do amount (Arithmetic.subtract .zero (← operand operator.symbol other))
  | .not => do return .bool (!(← condition operator.symbol value))

/-- Applies an operation of the number kernel; null makes the result null. -/
def calculate (symbol : String) (apply : Decimal → Decimal → Except ArithmeticError Decimal)
    (left right : Value) : Except Halt Value :=
  match left.bare, right.bare with
  | .null, _ => .ok .null
  | _, .null => .ok .null
  | left, right => do
    let leftAmount ← operand symbol left
    let rightAmount ← operand symbol right
    amount (apply leftAmount rightAmount)

/-- Adds numbers and joins texts. -/
def plus (left right : Value) : Except Halt Value :=
  match left.bare, right.bare with
  | .text left, .text right => .ok (.text (left ++ right))
  | _, _ => calculate "+" Arithmetic.add left right

/-- Tests how two values are ordered; nothing holds when one of them is null. -/
def compareBy (symbol : String) (test : Ordering → Bool) (left right : Value) :
    Except Halt Value :=
  match left.comparison right with
  | .ordered ordering => .ok (.bool (test ordering))
  | .unknown => .ok (.bool false)
  | .incomparable =>
    .error (.technical (.typeMismatch symbol "comparable operands"
      (left.bare.typeName ++ " and " ++ right.bare.typeName)))

end Operator

end Rulebook

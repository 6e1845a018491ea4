import Rulebook.Decimal.Basic

/-!
# Failures of arithmetic
-/
namespace Rulebook

/-- The operations of the number kernel that can leave the range of decimals. -/
inductive Operation where
  | add
  | subtract
  | multiply
  | divide
  | modulus
  | power
deriving DecidableEq, Repr

def Operation.name : Operation → String
  | .add => "add"
  | .subtract => "subtract"
  | .multiply => "multiply"
  | .divide => "divide"
  | .modulus => "modulus"
  | .power => "power"

inductive ArithmeticError where
  | divisionByZero
  | overflow (operation : Operation)
  | invalidPower (base exponent : Decimal)
  | invalidNumber (literal : String)
deriving DecidableEq

def ArithmeticError.message : ArithmeticError → String
  | .divisionByZero => "division by zero"
  | .overflow operation => "numeric overflow in " ++ operation.name
  | .invalidPower base exponent =>
    "cannot raise " ++ base.toPlain ++ " to fractional power " ++ exponent.toPlain
  | .invalidNumber literal => "invalid number literal '" ++ literal ++ "'"

end Rulebook

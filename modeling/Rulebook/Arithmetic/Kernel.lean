import Rulebook.Arithmetic.Error
import Rulebook.Decimal.Checked
import Rulebook.Decimal.Literal
import Rulebook.Text.Blank

/-!
# The number kernel

All arithmetic works at sixteen significant digits. An operand is normalized, the exact result is
rounded into the decimals, and that is normalized again. Normalizing rounds half to even and drops
trailing fractional zeros, so equal numbers have one normal form.
-/
namespace Rulebook

/-- How many digits a coefficient has beyond the sixteen that are kept. -/
def excessDigits (coefficient : Nat) : Nat :=
  if coefficient < 10_000_000_000_000_000 then 0 else excessDigits (coefficient / 10) + 1

/-- Rounds to sixteen significant digits; a number whose rounding is out of range stays as it is. -/
def roundSignificant (number : Decimal) : Decimal :=
  let excess := excessDigits number.mantissa.natAbs
  if excess ≤ number.scale then number.roundTo .even (number.scale - excess)
  else
    -- Digits are lost before the point, and zeros take their places.
    let rounded := roundRatio .even number.mantissa (powerOfTen excess)
    (Decimal.ofParts? (rounded * powerOfTen (excess - number.scale)) 0).getD number

/-- The normal form: sixteen significant digits, half to even, no trailing fractional zeros. Every
zero, whatever its places and its sign, becomes plain 0. -/
def normalize (number : Decimal) : Decimal :=
  if number.isZero then .zero else (roundSignificant number).trim

/-- A zero needs no branch of its own: rounding leaves it as it is, and trimming makes it plain. -/
theorem normalize_eq_trim (number : Decimal) :
    normalize number = (roundSignificant number).trim := by
  unfold normalize
  split
  next isZero =>
    have empty : number.mantissa = 0 := by simpa [Decimal.isZero] using isZero
    have kept : roundSignificant number = number := by
      simp [roundSignificant, Decimal.roundTo, excessDigits, empty]
    rw [kept, Decimal.trim_of_isZero isZero]
  next => rfl

namespace Arithmetic

/-- Reads a plain or scientific literal between blanks and normalizes it. -/
def parse (literal : String) : Except ArithmeticError Decimal :=
  match Decimal.ofLiteralChars? (trimChars literal.toList) with
  | some number => .ok (normalize number)
  | none => .error (.invalidNumber literal)

/-- Normalizes a result, or reports that it is out of range. -/
def settle (operation : Operation) : Option Decimal → Except ArithmeticError Decimal
  | some number => .ok (normalize number)
  | none => .error (.overflow operation)

def add (left right : Decimal) : Except ArithmeticError Decimal :=
  settle .add ((normalize left).add? (normalize right))

def subtract (left right : Decimal) : Except ArithmeticError Decimal :=
  settle .subtract ((normalize left).subtract? (normalize right))

def multiply (left right : Decimal) : Except ArithmeticError Decimal :=
  settle .multiply ((normalize left).multiply? (normalize right))

/-- The quotient; only zero is no divisor. -/
def divide (left right : Decimal) : Except ArithmeticError Decimal :=
  let divisor := normalize right
  if divisor.isZero then .error .divisionByZero
  else settle .divide ((normalize left).divide? divisor)

/-- The truncated remainder, which has the sign of the dividend. -/
def modulus (left right : Decimal) : Except ArithmeticError Decimal :=
  let divisor := normalize right
  -- The divisor is tested as it is normalized, so it is zero only if it was.
  if divisor.isZero then .error .divisionByZero
  else settle .modulus ((normalize left).remainder? divisor)

/-- Rounds the normal form to a number of places. -/
def roundAt (tie : Tie) (places : Nat) (number : Decimal) : Decimal :=
  ((normalize number).roundTo tie places).trim

/-- The nearest integer, ties away from zero. -/
def round (number : Decimal) : Decimal :=
  roundAt .away 0 number

/-- The nearest integer, ties to even. -/
def roundEven (number : Decimal) : Decimal :=
  roundAt .even 0 number

def floor (number : Decimal) : Decimal :=
  (normalize number).floor.trim

def ceil (number : Decimal) : Decimal :=
  (normalize number).ceil.trim

def abs (number : Decimal) : Decimal :=
  (normalize number).abs

/-- Compares normal forms, so 1 and 1.00 are equal. -/
def order (left right : Decimal) : Ordering :=
  (normalize left).order (normalize right)

def equal (left right : Decimal) : Bool :=
  order left right == .eq

/-- Plain notation of the normal form. -/
def toPlain (number : Decimal) : String :=
  (normalize number).toPlain

end Arithmetic

end Rulebook

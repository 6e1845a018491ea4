import Rulebook.Decimal.Rounding

/-!
# Checked operations

The exact result of an operation on two decimals is a rational, and `nearest?` takes it back into
the decimals. An operation answers none when its result is out of range.
-/
namespace Rulebook.Decimal

/-- The numerators of two decimals over their common denominator. -/
def align (left right : Decimal) : Int × Int × Nat :=
  (left.mantissa * powerOfTen right.scale, right.mantissa * powerOfTen left.scale,
    powerOfTen (left.scale + right.scale))

def add? (left right : Decimal) : Option Decimal :=
  let (augend, addend, denominator) := align left right
  nearest? (augend + addend) denominator

def subtract? (left right : Decimal) : Option Decimal :=
  let (minuend, subtrahend, denominator) := align left right
  nearest? (minuend - subtrahend) denominator

def multiply? (left right : Decimal) : Option Decimal :=
  nearest? (left.mantissa * right.mantissa) (powerOfTen (left.scale + right.scale))

/-- The quotient by a number other than zero; its sign is carried by the numerator. -/
def divide? (left right : Decimal) : Option Decimal :=
  let (dividend, divisor, _) := align left right
  nearest? (dividend * divisor.sign) divisor.natAbs

/-- The truncated remainder by a number other than zero, with the sign of the dividend. -/
def remainder? (left right : Decimal) : Option Decimal :=
  let (dividend, divisor, denominator) := align left right
  nearest? (dividend.tmod divisor) denominator

end Rulebook.Decimal

import Rulebook.Arithmetic.Kernel

/-!
# Powers

A whole exponent is multiplied out, and a negative one divides one by the power with its magnitude;
a power with a fractional exponent is approximated. The powers themselves come from a library of
decimals. Which of them is asked for, and what becomes of its answer, is decided here.
-/
namespace Rulebook

/-- The powers of a library of decimals; either function answers nothing on overflow. -/
structure PowerLibrary where
  /-- The power with a whole exponent. -/
  whole? : Decimal → Nat → Option Decimal
  /-- The power with any exponent, through the logarithm of the base. -/
  fractional? : Decimal → Decimal → Option Decimal

/-- The library that has no powers. -/
def PowerLibrary.empty : PowerLibrary :=
  ⟨fun _ _ => none, fun _ _ => none⟩

namespace Arithmetic

/-- Whole exponents are signed 64-bit integers. -/
def isExponent (exponent : Int) : Bool :=
  decide (-0x80000000_00000000 ≤ exponent ∧ exponent < 0x80000000_00000000)

/-- Raises a base to an exponent. -/
def power (powers : PowerLibrary) (base exponent : Decimal) : Except ArithmeticError Decimal :=
  let base := normalize base
  let exponent := normalize exponent
  match exponent.toInteger? with
  | some whole =>
    if isExponent whole then
      match powers.whole? base whole.natAbs with
      | none => .error (.overflow .power)
      | some magnitude => if whole < 0 then divide .one magnitude else .ok (normalize magnitude)
    else .error (.overflow .power)
  | none =>
    if base.isNegative then .error (.invalidPower base exponent)
    else settle .power (powers.fractional? base exponent)

end Arithmetic

end Rulebook

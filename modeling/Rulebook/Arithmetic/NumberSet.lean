import Rulebook.Arithmetic.Kernel

/-!
# Stepped number sets

A number set is an interval, open on the side where a bound is missing. With a step, its members
also lie a whole number of steps from its anchor: the lower bound, else the upper one, else zero.
-/
namespace Rulebook

structure NumberSet where
  lower : Option Decimal := none
  upper : Option Decimal := none
  step : Option Decimal := none
deriving DecidableEq

namespace NumberSet

def anchor (set : NumberSet) : Decimal :=
  (set.lower.or set.upper).getD .zero

def isBelow (set : NumberSet) (value : Decimal) : Bool :=
  set.lower.any fun bound => Arithmetic.order value bound == .lt

def isAbove (set : NumberSet) (value : Decimal) : Bool :=
  set.upper.any fun bound => Arithmetic.order value bound == .gt

/-- Decides membership; the bounds are looked at before the step. -/
def contains (set : NumberSet) (value : Decimal) : Except ArithmeticError Bool :=
  if set.isBelow value || set.isAbove value then .ok false
  else match set.step with
  | none => .ok true
  | some step => do
    let offset ← Arithmetic.subtract value set.anchor
    let remainder ← Arithmetic.modulus offset step
    return remainder.isZero

end NumberSet

end Rulebook

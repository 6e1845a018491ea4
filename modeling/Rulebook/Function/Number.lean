import Rulebook.Arithmetic.NumberSet
import Rulebook.Function.Argument

/-!
# Functions of numbers
-/
namespace Rulebook.Builtin

open Argument

/-- Rounds to an integer, or to the places of a second argument. -/
def roundBy (tie : Tie) : Function := fun arguments _ => do
  expectCount 1 2 "1 or 2" arguments
  match ← number? arguments 0 with
  | none => return .null
  | some amount =>
    let places ← places? arguments 1
    return .number (Arithmetic.roundAt tie (places.getD 0) amount)

def round : Function := roundBy .away

def roundEven : Function := roundBy .even

/-- Applies a function of one number; null stays null. -/
def onNumber (apply : Decimal → Decimal) : Function := fun arguments _ => do
  expectCount 1 1 "1" arguments
  match ← number? arguments 0 with
  | none => return .null
  | some amount => return .number (apply amount)

def floor : Function := onNumber Arithmetic.floor

def ceil : Function := onNumber Arithmetic.ceil

def abs : Function := onNumber Arithmetic.abs

/-- Membership in a stepped number set; nothing is a member of none. -/
def inNumberSet : Function := fun arguments _ => do
  expectCount 4 4 "4" arguments
  match ← number? arguments 0 with
  | none => return .bool false
  | some amount =>
    let set : NumberSet :=
      ⟨← number? arguments 1, ← number? arguments 2, ← number? arguments 3⟩
    return .bool (← arithmetic (set.contains amount))

end Rulebook.Builtin

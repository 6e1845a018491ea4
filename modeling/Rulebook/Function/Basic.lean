import Rulebook.Arithmetic.Error
import Rulebook.Calendar.Clock
import Rulebook.Text.Quoted
import Rulebook.Value.Basic

/-!
# Functions

A function gets its argument values and the clock. Besides failing it can skip: the signal that
the rule which calls it does not apply. A registry holds one function under a name, the one
registered last.
-/
namespace Rulebook

/-- Why a function gave no value. -/
inductive FunctionError where
  | skip (reason : String)
  | arity (expected : String) (actual : Nat)
  | argument (position : Nat) (expected found : String)
  | arithmetic (error : ArithmeticError)
  | failed (message : String)
deriving DecidableEq

def FunctionError.message : FunctionError → String
  | .skip reason => reason
  | .arity expected actual =>
    "expected " ++ expected ++ " argument(s), got " ++ toString actual
  | .argument position expected found =>
    "argument " ++ toString position ++ " must be " ++ expected ++ ", found " ++ found
  | .arithmetic error => error.message
  | .failed message => message

abbrev Function := List Value → Clock → Except FunctionError Value

structure FunctionRegistry where
  functions : Table Function := []

namespace FunctionRegistry

def empty : FunctionRegistry := {}

/-- Registers a function, in place of an earlier one of that name. -/
def register (name : String) (body : Function) (registry : FunctionRegistry) : FunctionRegistry :=
  ⟨Table.set name body registry.functions⟩

def find? (registry : FunctionRegistry) (name : String) : Option Function :=
  Table.find? name registry.functions

def contains (registry : FunctionRegistry) (name : String) : Bool :=
  (registry.find? name).isSome

/-- The names in ascending order. -/
def names (registry : FunctionRegistry) : List String :=
  (Table.names registry.functions).mergeSort fun left right => !(right < left)

/-- A listing of the names for diagnostics. -/
def listing (registry : FunctionRegistry) : String :=
  "FunctionRegistry \x7b functions: " ++ quoteTexts registry.names ++ " \x7d"

end FunctionRegistry

end Rulebook

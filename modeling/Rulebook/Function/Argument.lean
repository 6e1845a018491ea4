import Rulebook.Function.Basic

/-!
# Reading arguments

An argument that is missing or null has no value. One of a wrong type is reported with its
position and the name of its type.
-/
namespace Rulebook.Argument

/-- Checks the number of arguments against bounds. -/
def expectCount (least greatest : Nat) (expected : String) (arguments : List Value) :
    Except FunctionError Unit :=
  if least ≤ arguments.length ∧ arguments.length ≤ greatest then .ok ()
  else .error (.arity expected arguments.length)

/-- The error of an argument of a wrong type. -/
def mismatch (position : Nat) (expected : String) (found : Value) : FunctionError :=
  .argument position expected found.typeName

def get (arguments : List Value) (position : Nat) : Value :=
  arguments.getD position .null

/-- The numeric component of an argument. -/
def number? (arguments : List Value) (position : Nat) : Except FunctionError (Option Decimal) :=
  match get arguments position with
  | .null => .ok none
  | value =>
    match value.number? with
    | some amount => .ok (some amount)
    | none => .error (mismatch position "a number" value)

/-- An argument that is a number of places: a whole number of 32 bits. -/
def places? (arguments : List Value) (position : Nat) : Except FunctionError (Option Nat) := do
  match ← number? arguments position with
  | none => return none
  | some amount =>
    match amount.toInteger? with
    | some places =>
      if 0 ≤ places ∧ places < 0x1_00000000 then return some places.toNat
      else throw (mismatch position "a non-negative integer" (.number amount))
    | none => throw (mismatch position "a non-negative integer" (.number amount))

def text? (arguments : List Value) (position : Nat) : Except FunctionError (Option String) :=
  match get arguments position with
  | .null => .ok none
  | .text characters => .ok (some characters)
  | value => .error (mismatch position "a string" value)

/-- The elements of a list or map argument that are not null. -/
def members (arguments : List Value) (position : Nat) : Except FunctionError (List Value) :=
  match get arguments position with
  | .null => .ok []
  | .list items => .ok (items.filter (!·.isNull))
  | .map entries => .ok ((entries.map (·.2)).filter (!·.isNull))
  | value => .error (mismatch position "a collection" value)

/-- The numeric component of one element of the first argument. -/
def element (value : Value) : Except FunctionError Decimal :=
  match value.number? with
  | some amount => .ok amount
  | none => .error (mismatch 0 "a collection of numbers" value)

/-- The numeric components of the first argument's elements. -/
def amounts (arguments : List Value) : Except FunctionError (List Decimal) := do
  (← members arguments 0).mapM element

/-- Passes on a result of the number kernel. -/
def arithmetic {α : Type} : Except ArithmeticError α → Except FunctionError α
  | .ok result => .ok result
  | .error error => .error (.arithmetic error)

end Rulebook.Argument

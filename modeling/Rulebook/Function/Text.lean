import Rulebook.Function.Argument

/-!
# Functions of texts
-/
namespace Rulebook.Builtin

open Argument

/-- Whether there is nothing: null, an empty optional value, text or collection. -/
def isEmptyValue : Value → Bool
  | .null | .absent => true
  | .text characters => characters.isEmpty
  | .list items => items.isEmpty
  | .map entries => entries.isEmpty
  | _ => false

def isEmpty : Function := fun arguments _ => do
  expectCount 1 1 "1" arguments
  return .bool (isEmptyValue (get arguments 0))

/-- Joins texts; nulls add nothing. -/
def join : (position : Nat) → List Value → Except FunctionError String
  | _, [] => .ok ""
  | position, .null :: rest => join (position + 1) rest
  | position, .text characters :: rest => do return characters ++ (← join (position + 1) rest)
  | position, other :: _ => .error (mismatch position "a string" other)

/-- Joins its arguments, or the items of a list that is its only argument. -/
def concat : Function := fun arguments _ => do
  let parts := match arguments with
    | [.list items] => items
    | _ => arguments
  return .text (← join 0 parts)

/-- Applies a function of one text; null stays null. -/
def onText (apply : String → Value) : Function := fun arguments _ => do
  expectCount 1 1 "1" arguments
  match ← text? arguments 0 with
  | none => return .null
  | some characters => return apply characters

def upper : Function := onText fun characters => .text (toUpperCase characters)

def lower : Function := onText fun characters => .text (toLowerCase characters)

/-- Counts characters. -/
def length : Function := onText fun characters => .ofCount characters.length

end Rulebook.Builtin

import Rulebook.Function.Argument

/-!
# Functions of collections

Counting, sums, means, extremes and flattening. Null elements never count. Of equal
extremes the leftmost is the best.
-/
namespace Rulebook.Builtin

open Argument

def count : Function := fun arguments _ => do
  expectCount 1 1 "1" arguments
  return .ofCount (← members arguments 0).length

/-- Adds up from the left, starting at zero. -/
def total (amounts : List Decimal) : Except ArithmeticError Decimal :=
  amounts.foldlM Arithmetic.add .zero

def sum : Function := fun arguments _ => do
  expectCount 1 1 "1" arguments
  return .number (← arithmetic (total (← amounts arguments)))

/-- The mean; there is none of nothing. -/
def average : Function := fun arguments _ => do
  expectCount 1 1 "1" arguments
  let amounts ← amounts arguments
  -- Here nothing is divided by zero.
  if amounts.isEmpty then return .null
  let total ← arithmetic (total amounts)
  return .number (← arithmetic
    (Arithmetic.divide total ((Decimal.ofNat? amounts.length).getD .zero)))

/-- How a candidate compares with the best element so far, if they are of one kind. -/
def rank (candidate best : Value) : Except FunctionError Ordering :=
  match best, candidate with
  | .date best, .date candidate => .ok (candidate.order best)
  | .dateTime best, .dateTime candidate => .ok (candidate.order best)
  -- Numbers and money are compared by their amounts.
  | best, candidate =>
    match best.number?, candidate.number? with
    | some bestAmount, some amount => .ok (Arithmetic.order amount bestAmount)
    | _, _ => .error (mismatch 0 "a homogeneous collection" candidate)

/-- Whether an element can be compared at all. -/
def isRankable : Value → Bool
  | .number _ | .money _ _ | .date _ | .dateTime _ => true
  | _ => false

/-- Keeps the best element so far unless the next one is strictly better. -/
def better (wanted : Ordering) (best : Option Value) (candidate : Value) :
    Except FunctionError (Option Value) :=
  match best with
  | none =>
    if isRankable candidate then .ok (some candidate)
    else .error (mismatch 0 "a collection of numbers or dates" candidate)
  | some best => do
    let ordering ← rank candidate best
    return some (if ordering = wanted then candidate else best)

def best (wanted : Ordering) : Function := fun arguments _ => do
  expectCount 1 1 "1" arguments
  let found ← (← members arguments 0).foldlM (better wanted) none
  return found.getD .null

def minimum : Function := best .lt

def maximum : Function := best .gt

mutual

/-- The values in nested lists, in order; a value that is no list stands for itself. -/
def flatten : Value → List Value
  | .list items => flattenAll items
  -- Null is left out at every depth, as in counting.
  | .null => []
  | value => [value]

def flattenAll : List Value → List Value
  | [] => []
  | value :: values => flatten value ++ flattenAll values

end

def flat : Function := fun arguments _ => do
  expectCount 1 1 "1" arguments
  return .list (flatten (get arguments 0))

end Rulebook.Builtin

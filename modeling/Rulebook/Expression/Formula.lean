import Rulebook.Expression.Basic

/-!
# Formulas

A formula is an expression together with the names in it that are read from another context. Its
references list every name that the expression reads from outside, in the order of their
characters, and after them the flagged names that it does not read.
-/
namespace Rulebook

namespace Expression

mutual

/-- The names read from outside, in reading order. Inside the predicate of a filter names are read
from the element, so none is listed there. -/
def freeNames (bound : List String) : Expression → List String
  | literal _ | this => []
  | identifier name => if name ∈ bound then [] else [name]
  | property base _ => freeNames bound base
  | index base position => freeNames bound base ++ freeNames bound position
  | unary _ operand => freeNames bound operand
  | binary _ left right => freeNames bound left ++ freeNames bound right
  | call _ arguments => freeNamesAll bound arguments
  | collection items => freeNamesAll bound items
  -- The predicate reads from the element.
  | filter source _ => freeNames bound source
  -- The source stands outside the binding.
  | forEach element source body => freeNames bound source ++ freeNames (element :: bound) body
  | quantified _ element source predicate =>
    freeNames bound source ++ freeNames (element :: bound) predicate
  | ifThen condition consequence => freeNames bound condition ++ freeNames bound consequence
  | ifThenElse condition consequence alternative =>
    freeNames bound condition ++ freeNames bound consequence ++ freeNames bound alternative
  | instanceOf operand _ => freeNames bound operand
  | cast _ operand => freeNames bound operand

def freeNamesAll (bound : List String) : List Expression → List String
  | [] => []
  | expression :: expressions => freeNames bound expression ++ freeNamesAll bound expressions

end

end Expression

/-- A name that a formula reads, and whether it comes from another context. -/
structure Reference where
  name : String
  crossContext : Bool
deriving DecidableEq, Repr

/-- Inserts a name into an ascending list without repetition. -/
def insertName (name : String) : List String → List String
  | [] => [name]
  | head :: rest =>
    if name < head then name :: head :: rest
    else if name = head then head :: rest
    else head :: insertName name rest

/-- The names in ascending order, each once. -/
def sortNames (names : List String) : List String :=
  names.foldr insertName []

structure Formula where
  expression : Expression
  flagged : List String := []

inductive FormulaKind where
  | literal
  | path
  | complex
deriving DecidableEq, Repr

def FormulaKind.name : FormulaKind → String
  | .literal => "literal"
  | .path => "path"
  | .complex => "complex"

namespace Formula

/-- Marks a name as read from another context; one that is not listed yet goes to the end. -/
def flag (name : String) : List Reference → List Reference
  | [] => [⟨name, true⟩]
  | reference :: rest =>
    if reference.name = name then ⟨name, true⟩ :: rest else reference :: flag name rest

/-- Every name the formula reads or flags. -/
def references (formula : Formula) : List Reference :=
  -- Flags are applied in turn, so a name flagged twice is still listed once.
  let free := sortNames (formula.expression.freeNames [])
  formula.flagged.foldl (fun references name => flag name references)
    (free.map fun name => ⟨name, false⟩)

/-- The flagged names in the order of the references. -/
def crossNames (formula : Formula) : List String :=
  (formula.references.filter (·.crossContext)).map (·.name)

/-- The value of a formula that is a literal. -/
def literal? (formula : Formula) : Option Value :=
  match formula.expression with
  | .literal value => some value
  | _ => none

def kind (formula : Formula) : FormulaKind :=
  match formula.expression with
  | .literal _ => .literal
  | expression => if expression.isPath then .path else .complex

def text (formula : Formula) : String :=
  formula.expression.text

/-- The formula that reads the attribute at a path. -/
def ofPath (path : String) : Except PathError Formula := do
  return { expression := ← Expression.ofPath path }

end Formula

end Rulebook

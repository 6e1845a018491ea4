import Rulebook.Extraction.Adapter
import Rulebook.Function.Basic
import Rulebook.Path.Basic

/-!
# Failures of evaluation

An evaluation ends with a value, with a technical failure, or because a function signalled that
the rule does not apply. Only the last is a skip; both kinds of end name the expression.
-/
namespace Rulebook

/-- Why a property could not be read or written. -/
inductive PropertyError where
  | undefined (property typeName : String)
  | notAnObject (property typeName : String)
deriving DecidableEq, Repr

def PropertyError.message : PropertyError → String
  | .undefined property typeName =>
    "property '" ++ property ++ "' is not defined on " ++ typeName
  | .notAnObject property typeName =>
    "cannot access property '" ++ property ++ "' of " ++ typeName

/-- Why a step of an assignment could not be taken. -/
inductive AssignmentFault where
  | notNavigable (typeName : String)
  | absent
  | outOfBounds (length : Nat)
  | notIndexable (typeName : String)
  | emptyPath
deriving DecidableEq, Repr

def AssignmentFault.message : AssignmentFault → String
  | .notNavigable typeName => typeName ++ " cannot be navigated"
  | .absent => "intermediate value is absent"
  | .outOfBounds length => "index out of bounds for length " ++ toString length
  | .notIndexable typeName => typeName ++ " cannot be indexed"
  | .emptyPath => "empty path"

/-- The technical cause of a failed evaluation or assignment. -/
inductive TechnicalCause where
  | property (error : PropertyError)
  | arithmetic (error : ArithmeticError)
  | extraction (error : InstanceError)
  | invalidPath (error : PathError)
  | typeMismatch (operator expected found : String)
  | invalidIndex (target position : String)
  | unknownFunction (name : String)
  | function (name : String) (error : FunctionError)
  | recursionLimit (limit : Nat)
  | assignment (step : String) (fault : AssignmentFault)
deriving DecidableEq

def TechnicalCause.message (explain : Explanation) : TechnicalCause → String
  | .property error => error.message
  | .arithmetic error => error.message
  | .extraction error => error.message
  | .invalidPath error => error.message explain
  | .typeMismatch operator expected found =>
    "operator '" ++ operator ++ "' expected " ++ expected ++ ", found " ++ found
  | .invalidIndex target position => "cannot index " ++ target ++ " with " ++ position
  | .unknownFunction name => "unknown function '" ++ name ++ "'"
  | .function name error => "function '" ++ name ++ "' failed: " ++ error.message
  | .recursionLimit limit => "expression nesting exceeds " ++ toString limit ++ " levels"
  | .assignment step fault =>
    "cannot assign through '" ++ step ++ "': " ++ fault.message

/-- How an evaluation ends without a value. -/
inductive Halt where
  | technical (cause : TechnicalCause)
  | skip (reason : String)
deriving DecidableEq

/-- A halt together with the text of the expression, or of the path, that it ended. -/
structure EvaluationError where
  expression : String
  halt : Halt
deriving DecidableEq

namespace EvaluationError

def isSkip (error : EvaluationError) : Bool :=
  match error.halt with
  | .skip _ => true
  | .technical _ => false

def message (explain : Explanation) (error : EvaluationError) : String :=
  match error.halt with
  | .technical cause =>
    "failed to evaluate '" ++ error.expression ++ "': " ++ cause.message explain
  | .skip reason => "evaluation of '" ++ error.expression ++ "' skipped: " ++ reason

end EvaluationError

end Rulebook

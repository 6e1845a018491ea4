import Rulebook.Arithmetic.NumberSet
import Rulebook.Template.Message

/-!
# Rules

A rule is bound to one attribute: a path on a context. It names the attributes it reads, may have a
condition, and its payload checks the attribute or gives it a value.
-/
namespace Rulebook

/-- An attribute of a context. -/
structure Attribute where
  context : String
  path : String
deriving DecidableEq, Repr

def Attribute.text (target : Attribute) : String :=
  target.context ++ "." ++ target.path

/-- What a rule does once its condition holds: an assertion must be true; a default fills an empty
attribute, a reset overwrites it; a number set must contain it. -/
inductive Payload where
  | assertion (formula : Formula)
  | default (formula : Formula)
  | reset (formula : Formula)
  | numberSet (set : NumberSet)

def Payload.kind : Payload → String
  | .assertion _ => "assertion"
  | .default _ => "default"
  | .reset _ => "reset"
  | .numberSet _ => "number-set"

structure Rule where
  name : String
  target : Attribute
  reads : List Attribute := []
  condition : Option Formula := none
  payload : Payload
  message : Option MessageTemplate := none

namespace Rule

/-- The name of the rule with what it does and where. -/
def text (rule : Rule) : String :=
  rule.name ++ " (" ++ rule.payload.kind ++ " on " ++ rule.target.text ++ ")"

/-- The written attributes that the rule reads, each once, in the order of declaration. -/
def readTexts (rule : Rule) : List String :=
  (rule.reads.map Attribute.text).eraseDups

end Rule

end Rulebook

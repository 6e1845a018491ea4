import Rulebook.Expression.Formula
import Rulebook.Template.Token

/-!
# Message templates

A message is literal parts with formulas between them. One that was read from a template has one
part more than formulas; when formatting, whichever list is longer is finished alone.
-/
namespace Rulebook

structure MessageTemplate where
  parts : List String
  formulas : List Formula

namespace MessageTemplate

/-- Adds text to the last part. -/
def appendText (text : String) : List String → List String
  | [] => []
  | [part] => [part ++ text]
  | part :: parts => part :: appendText text parts

/-- Adds one token: text to the last part, a placeholder as a formula and a new part. -/
def push (template : MessageTemplate) : MessageToken → Except PathError MessageTemplate
  | token@(.text _) => .ok { template with parts := appendText token.content template.parts }
  | token@(.placeholder _) => do
    let formula ← Formula.ofPath token.content
    return ⟨template.parts ++ [""], template.formulas ++ [formula]⟩

/-- Reads a template whose placeholders are attribute paths. -/
def ofText (template : String) : Except PathError MessageTemplate := do
  (← readTemplate template).foldlM push ⟨[""], []⟩

/-- Alternates the parts with rendered values; a part comes first. -/
def interleave : (parts rendered : List String) → String
  | [], rendered => String.join rendered
  | parts, [] => String.join parts
  | part :: parts, value :: rendered => part ++ value ++ interleave parts rendered

def format (template : MessageTemplate) (rendered : List String) : String :=
  interleave template.parts rendered

end MessageTemplate

end Rulebook

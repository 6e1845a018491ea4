import Rulebook.Evaluation.Failure

/-!
# Traced results

Evaluation ends with a value or a halt, and on the way it notes diagnostics, which are kept in
either case. A halt ends the work: nothing after it runs or is noted.
-/
namespace Rulebook

/-- Something noticed during an evaluation that does not end it. -/
inductive Diagnostic where
  | unresolvedReference (name : String)
deriving DecidableEq, Repr

def Diagnostic.message : Diagnostic → String
  | .unresolvedReference name => "unresolved cross-context reference '" ++ name ++ "'"

/-- An outcome and the diagnostics noted on the way to it. -/
structure Traced (α : Type) where
  outcome : Except Halt α
  diagnostics : List Diagnostic := []

namespace Traced

variable {α β : Type}

def pure (value : α) : Traced α := ⟨.ok value, []⟩

def fail (halt : Halt) : Traced α := ⟨.error halt, []⟩

/-- Ends with a technical failure. -/
def failWith (cause : TechnicalCause) : Traced α := fail (.technical cause)

/-- Notes a diagnostic. -/
def note (diagnostic : Diagnostic) (value : α) : Traced α := ⟨.ok value, [diagnostic]⟩

def bind (first : Traced α) (next : α → Traced β) : Traced β :=
  match first.outcome with
  | .ok value =>
    let second := next value
    ⟨second.outcome, first.diagnostics ++ second.diagnostics⟩
  | .error halt => ⟨.error halt, first.diagnostics⟩

instance : Monad Traced where
  pure := pure
  bind := bind

/-- A result that notes nothing. -/
def ofExcept : Except Halt α → Traced α
  | .ok value => pure value
  | .error halt => fail halt

/-- A result whose error is a technical failure of some kind. -/
def lift {ε : Type} (cause : ε → TechnicalCause) : Except ε α → Traced α
  | .ok value => pure value
  | .error error => failWith (cause error)

/-- Applies a traced function to the elements in order. -/
def mapAll (apply : α → Traced β) : List α → Traced (List β)
  | [] => pure []
  | element :: elements => do
    let first ← apply element
    let rest ← mapAll apply elements
    return first :: rest

/-- Keeps the elements for which a traced test holds. -/
def filterAll (test : α → Traced Bool) : List α → Traced (List α)
  | [] => pure []
  | element :: elements => do
    let holds ← test element
    let rest ← filterAll test elements
    return if holds then element :: rest else rest

/-- Whether the test gives the wanted answer for some element; the search stops there. -/
def search (wanted : Bool) (test : α → Traced Bool) : List α → Traced Bool
  | [] => pure false
  | element :: elements => do
    let holds ← test element
    if holds = wanted then return true else search wanted test elements

end Traced

end Rulebook

import Rulebook.Evaluation.Evaluator

/-!
# Assignment

A value is assigned along a path: every step but the last leads into a value that exists and is
not null, and the last one names the slot. The target is changed in place, so an assignment tells
how it went and what the target is afterwards, also if it failed on the way. Optional layers on the
way are looked through and kept.
-/
namespace Rulebook

/-- What an attempt to change a value in place leaves: how it went, and the value afterwards. -/
structure Attempt (ε : Type) where
  outcome : Except ε Unit
  value : Value

namespace Attempt

variable {ε ε' : Type}

def succeed (value : Value) : Attempt ε := ⟨.ok (), value⟩

/-- A refusal leaves the value as it is. -/
def refuse (error : ε) (value : Value) : Attempt ε := ⟨.error error, value⟩

/-- The same attempt on a value that another one stands inside of. -/
def inside (rebuild : Value → Value) (attempt : Attempt ε) : Attempt ε :=
  ⟨attempt.outcome, rebuild attempt.value⟩

def mapError (rename : ε → ε') (attempt : Attempt ε) : Attempt ε' :=
  ⟨attempt.outcome.mapError rename, attempt.value⟩

theorem mapError_eq_succeed_iff (rename : ε → ε') (attempt : Attempt ε) (value : Value) :
    attempt.mapError rename = succeed value ↔ attempt = succeed value := by
  obtain ⟨outcome, after⟩ := attempt
  cases outcome with
  | error failure =>
    constructor
    · exact fun same => nomatch congrArg Attempt.outcome same
    · exact fun same => nomatch congrArg Attempt.outcome same
  | ok =>
    constructor
    · exact fun same => congrArg (Attempt.mk _) (congrArg Attempt.value same)
    · exact fun same => congrArg (Attempt.mk _) (congrArg Attempt.value same)

/-- A renamed failure comes from a failure. -/
theorem exists_of_mapError_error {rename : ε → ε'} {attempt : Attempt ε} {error : ε'}
    (failed : (attempt.mapError rename).outcome = .error error) :
    ∃ failure, attempt.outcome = .error failure := by
  obtain ⟨outcome, after⟩ := attempt
  cases outcome with
  | error failure => exact ⟨failure, rfl⟩
  | ok => nomatch failed

end Attempt

/-- What a step selects in a container. -/
inductive Slot where
  | named (name : String)
  | placed (position : Nat)
deriving DecidableEq, Repr

/-- A property and a quoted key of one text select the same slot. -/
def PathStep.slot : PathStep → Slot
  | .property name | .key name => .named name
  | .index position => .placed position

namespace Value

variable {ε : Type}

/-- Changes what is inside all optional layers. -/
def throughLayers (change : Value → Attempt ε) : Value → Attempt ε
  | present inner => (throughLayers change inner).inside present
  | other => change other

/-- What stands in the slot that a step selects, in a container that is no optional value. -/
def slotContent (step : PathStep) (container : Value) : Except TechnicalCause (Option Value) :=
  match container, step.slot with
  | entity typeName _ fields, .named name =>
    match Table.find? name fields with
    | some value => .ok (some value)
    | none => .error (.property (.undefined name typeName))
  | map entries, .named name => .ok (Table.find? name entries)
  | list items, .placed position => .ok items[position]?
  | other, _ => .error (.assignment step.text (.notNavigable other.typeName))

/-- Finds the value that a step leads to. -/
def child (step : PathStep) (container : Value) : Except TechnicalCause Value :=
  match slotContent step container with
  | .error failure => .error failure
  | .ok none | .ok (some null) => .error (.assignment step.text .absent)
  | .ok (some value) => .ok value

/-- The container with a value in a slot of it. -/
def replaceSlot (slot : Slot) (value : Value) (container : Value) : Value :=
  match container, slot with
  | entity typeName identity fields, .named name =>
    entity typeName identity (Table.set name value fields)
  | map entries, .named name => map (Table.set name value entries)
  | list items, .placed position => list (items.set position value)
  | other, _ => other

/-- Puts a value into the slot that the last step selects. -/
def putSlot (access : PropertyAccess) (step : PathStep) (value : Value)
    (container : Value) : Attempt TechnicalCause :=
  match container, step.slot with
  | container, .named name =>
    match access.set container name value with
    | .ok changed => .succeed changed
    | .error error => .refuse (.property error) container
  | list items, .placed position =>
    if position < items.length then .succeed (list (items.set position value))
    else .refuse (.assignment step.text (.outOfBounds items.length)) (list items)
  | other, .placed _ => .refuse (.assignment step.text (.notIndexable other.typeName)) other

/-- Assigns along steps; `path` is their written form, for a path without any. -/
def assignAlong (access : PropertyAccess) (path : String) (value : Value) :
    List PathStep → Value → Attempt TechnicalCause
  | [], target => .refuse (.assignment path .emptyPath) target
  | [last], target => throughLayers (putSlot access last value) target
  | step :: next :: rest, target =>
    throughLayers (fun container =>
      match child step container with
      | .error failure => .refuse failure container
      | .ok inner =>
        -- What stands at the step afterwards is part of the container, however the attempt went.
        (assignAlong access path value (next :: rest) inner).inside
          (replaceSlot step.slot · container)) target

end Value

namespace Evaluator

/-- Assigns a value in place at a path of a target. -/
def assignInPlace (evaluator : Evaluator) (value : Value) (path : String) (target : Value) :
    Attempt EvaluationError :=
  let attempt : Attempt TechnicalCause := match readPath path with
    | .error error => .refuse (.invalidPath error) target
    | .ok steps => Value.assignAlong evaluator.access path value steps target
  attempt.mapError fun failure => ⟨path, .technical failure⟩

/-- The target with a value assigned at a path. -/
def assign (evaluator : Evaluator) (value : Value) (path : String) (target : Value) :
    Except EvaluationError Value :=
  let attempt := evaluator.assignInPlace value path target
  attempt.outcome.map fun _ => attempt.value

end Evaluator

end Rulebook

import Rulebook.Evaluation.Assignment
import Rulebook.Order.Basic

/-!
# Passes

A pass applies ordered rules to data, one after another. Every rule sees the data as the rules
before it left them. A rule that fails changes nothing, and the pass goes on.
-/
namespace Rulebook

/-- Why a rule could not be applied. -/
inductive RuleError where
  | evaluation (error : EvaluationError)
  | path (error : PathError)
  | arithmetic (error : ArithmeticError)

/-- What applying a rule came to. A rule is skipped if its condition does not hold; a check holds
or is violated, and then may have a message; an attribute keeps its value or is assigned one. -/
inductive RuleOutcome where
  | skipped
  | held
  | violated (message : Option String)
  | kept (value : Value)
  | assigned (value : Value)

structure PassStep where
  rule : Rule
  outcome : Except RuleError RuleOutcome

/-- What a pass evaluates with. -/
structure Pass where
  evaluator : Evaluator
  clock : Clock

namespace Pass

/-- The value of a formula over the data. -/
def valueOf (pass : Pass) (data : Value) (formula : Formula) : Except RuleError Value :=
  (pass.evaluator.evaluate formula { data } pass.clock).mapError .evaluation

/-- Whether a condition holds of the data. -/
def holds (pass : Pass) (data : Value) (condition : Formula) : Except RuleError Bool :=
  (pass.evaluator.holds condition { data } pass.clock).mapError .evaluation

/-- The value of the attribute that a rule targets. -/
def current (pass : Pass) (data : Value) (rule : Rule) : Except RuleError Value := do
  let formula ← (Formula.ofPath rule.target.path).mapError .path
  pass.valueOf data formula

/-- The outcome of a check; the message of a rule is written only if the check does not hold. -/
def report (pass : Pass) (data : Value) (rule : Rule) (holds : Bool) :
    Except RuleError RuleOutcome :=
  if holds then .ok .held
  else match rule.message with
  | none => .ok (.violated none)
  | some template => do
    let rendered ← (pass.evaluator.renderFormulas template { data } pass.clock).mapError
      .evaluation
    return .violated (some (template.format rendered))

/-- Gives the targeted attribute the value of a formula. -/
def assign (pass : Pass) (data : Value) (rule : Rule) (formula : Formula) :
    Except RuleError (RuleOutcome × Value) := do
  let value ← pass.valueOf data formula
  let changed ← (pass.evaluator.assign value rule.target.path data).mapError .evaluation
  return (.assigned value, changed)

/-- Carries out what a rule does once its condition holds. -/
def carryOut (pass : Pass) (data : Value) (rule : Rule) :
    Except RuleError (RuleOutcome × Value) :=
  match rule.payload with
  | .assertion formula => do
    return (← pass.report data rule (← pass.holds data formula), data)
  | .numberSet set => do
    let current ← pass.current data rule
    let holds ← match current.number? with
      | some number => (set.contains number).mapError .arithmetic
      -- What has no numeric component is in no number set.
      | none => pure false
    return (← pass.report data rule holds, data)
  | .default formula => do
    -- A value that is there already is kept.
    let current ← pass.current data rule
    if current.isNull then pass.assign data rule formula else return (.kept current, data)
  | .reset formula => pass.assign data rule formula

/-- Applies one rule, if its condition holds. -/
def apply (pass : Pass) (data : Value) (rule : Rule) : Except RuleError (RuleOutcome × Value) := do
  let applies ← match rule.condition with
    | some condition => pass.holds data condition
    | none => pure true
  if applies then pass.carryOut data rule else return (.skipped, data)

/-- Applies rules in order; the steps and the data in the end. -/
def run (pass : Pass) (data : Value) : List Rule → List PassStep × Value
  | [] => ([], data)
  | rule :: rules =>
    match pass.apply data rule with
    | .error error =>
      -- What the rule would have changed is given up.
      let (steps, final) := run pass data rules
      (⟨rule, .error error⟩ :: steps, final)
    | .ok (outcome, changed) =>
      let (steps, final) := run pass changed rules
      (⟨rule, .ok outcome⟩ :: steps, final)

end Pass

end Rulebook

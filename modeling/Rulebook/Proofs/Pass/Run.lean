import Mathlib.Logic.Relation
import Rulebook.Pass.Basic
import Rulebook.Proofs.Assignment.Change

/-!
# What a pass does to the data

Only an assignment changes data, and only defaults and resets assign. So each step of a pass either
leaves the data as it was, whether its rule was skipped, held, was violated, kept a value or failed,
or puts the value of a formula at the target of its rule. A whole pass is such steps in turn, one
for each rule, and every rule sees the data as the rules before it left them.
-/
namespace Rulebook

open Value (SlotChanged)

/-- The formula whose value the payload may give the attribute. -/
def Payload.formula? : Payload → Option Formula
  | .default formula | .reset formula => some formula
  | .assertion _ | .numberSet _ => none

namespace Pass

variable {pass : Pass} {data after : Value} {rule : Rule} {formula : Formula}
  {outcome : RuleOutcome}

/-- What one step does to the data. -/
inductive Moves (pass : Pass) (step : PassStep) : Value → Value → Prop
  | stays (data : Value) (quiet : ∀ value, step.outcome ≠ .ok (.assigned value)) :
      Moves pass step data data
  | assigns {before after value : Value} {formula : Formula}
      (gives : step.rule.payload.formula? = some formula)
      (evaluates : pass.valueOf before formula = .ok value)
      (puts : pass.evaluator.assign value step.rule.target.path before = .ok after)
      (told : step.outcome = .ok (.assigned value)) : Moves pass step before after

/-- Steps that follow each other. -/
inductive MovesInTurn (pass : Pass) : List PassStep → Value → Value → Prop
  | done (data : Value) : MovesInTurn pass [] data data
  | step {step : PassStep} {steps : List PassStep} {before between after : Value}
      (moves : pass.Moves step before between) (rest : pass.MovesInTurn steps between after) :
      MovesInTurn pass (step :: steps) before after

/-! ## One rule -/

theorem bind_eq_ok_iff {ε α β : Type} {first : Except ε α} {next : α → Except ε β} {result : β} :
    first >>= next = .ok result ↔ ∃ value, first = .ok value ∧ next value = .ok result := by
  cases first with
  | error failure => exact iff_of_false nofun nofun
  | ok value => exact ⟨fun run => ⟨value, rfl, run⟩, fun ⟨_, same, run⟩ => by cases same; exact run⟩

theorem mapError_eq_ok_iff {ε ε' α : Type} {rename : ε → ε'} {first : Except ε α} {value : α} :
    first.mapError rename = .ok value ↔ first = .ok value := by
  cases first with
  | error failure => exact iff_of_false nofun nofun
  | ok other => exact ⟨fun same => by cases same; rfl, fun same => by cases same; rfl⟩

theorem moves_of_assign (gives : rule.payload.formula? = some formula)
    (assigned : pass.assign data rule formula = .ok (outcome, after)) :
    pass.Moves ⟨rule, .ok outcome⟩ data after := by
  obtain ⟨value, evaluates, assigned⟩ := bind_eq_ok_iff.mp assigned
  obtain ⟨changed, puts, told⟩ := bind_eq_ok_iff.mp assigned
  cases told
  exact .assigns gives evaluates (mapError_eq_ok_iff.mp puts) rfl

theorem report_ne_assigned {holds : Bool} (reported : pass.report data rule holds = .ok outcome)
    (value : Value) : outcome ≠ .assigned value := by
  rintro rfl
  unfold report at reported
  split at reported
  next => cases reported
  next =>
    split at reported
    next => cases reported
    next =>
      obtain ⟨rendered, _, told⟩ := bind_eq_ok_iff.mp reported
      cases told

/-- A check tells how it went and does not touch the data. -/
theorem moves_of_report {holds : Bool}
    (reported : (do return (← pass.report data rule holds, data)) = .ok (outcome, after)) :
    pass.Moves ⟨rule, .ok outcome⟩ data after := by
  obtain ⟨verdict, returned, told⟩ := bind_eq_ok_iff.mp reported
  cases told
  exact .stays data fun value same => report_ne_assigned returned value (Except.ok.inj same)

/-- What carrying out a rule does, payload by payload. -/
theorem moves_of_carryOut (carried : pass.carryOut data rule = .ok (outcome, after)) :
    pass.Moves ⟨rule, .ok outcome⟩ data after := by
  unfold carryOut at carried
  split at carried
  -- Assertions and number sets only report.
  next formula _ =>
    obtain ⟨holds, _, carried⟩ := bind_eq_ok_iff.mp carried
    exact moves_of_report carried
  next set _ =>
    obtain ⟨current, _, carried⟩ := bind_eq_ok_iff.mp carried
    split at carried
    all_goals
      obtain ⟨holds, _, carried⟩ := bind_eq_ok_iff.mp carried
      exact moves_of_report carried
  -- A default is put where there is nothing yet; a value that is there is kept.
  next formula payload =>
    obtain ⟨current, _, carried⟩ := bind_eq_ok_iff.mp carried
    split at carried
    next => exact moves_of_assign (by rw [payload]; rfl) carried
    next =>
      cases carried
      exact .stays data nofun
  next formula payload => exact moves_of_assign (by rw [payload]; rfl) carried

theorem moves_of_apply (applied : pass.apply data rule = .ok (outcome, after)) :
    pass.Moves ⟨rule, .ok outcome⟩ data after := by
  unfold apply at applied
  split at applied
  next condition _ =>
    obtain ⟨applies, _, applied⟩ := bind_eq_ok_iff.mp applied
    -- A rule whose condition does not hold is skipped.
    cases applies with
    | true => exact moves_of_carryOut applied
    | false =>
      cases applied
      exact .stays data nofun
  next => exact moves_of_carryOut applied

/-- With the standard access an assignment changes the slot that the target leads to, and all else
is as before. -/
theorem slotChanged_of_assign {evaluator : Evaluator} (access : evaluator.access = .standard)
    {value : Value} {path : String} (assigned : evaluator.assign value path data = .ok after) :
    ∃ steps, readPath path = .ok steps ∧ SlotChanged value steps data after := by
  have standard : { evaluator with access := .standard } = evaluator := by rw [← access]
  unfold Evaluator.assign at assigned
  cases read : readPath path with
  | error failure =>
    rw [Evaluator.assignInPlace, read] at assigned
    cases assigned
  | ok steps =>
    rw [← standard, Evaluator.assignInPlace_of_readPath evaluator value read] at assigned
    refine ⟨steps, rfl, (Value.assignWithin_eq_succeed_iff path value steps data after).mp ?_⟩
    -- From here on only the outcome matters: the value is returned if the attempt has succeeded.
    generalize Value.assignWithin path value steps data = attempt at assigned ⊢
    obtain ⟨done, left⟩ := attempt
    cases done with
    | error failure => cases assigned
    | ok =>
      cases assigned
      rfl

/-! ## A pass -/

/-- There is one step for each rule, in order. -/
theorem run_rules (pass : Pass) (data : Value) (rules : List Rule) :
    (pass.run data rules).1.map (·.rule) = rules := by
  induction rules generalizing data with
  | nil => rfl
  | cons rule rules ih =>
    rw [run]
    cases pass.apply data rule with
    | error failure => exact congrArg (rule :: ·) (ih data)
    | ok result => exact congrArg (rule :: ·) (ih result.2)

/-- A pass moves the data step by step. -/
theorem run_moves (pass : Pass) (data : Value) (rules : List Rule) :
    pass.MovesInTurn (pass.run data rules).1 data (pass.run data rules).2 := by
  induction rules generalizing data with
  | nil => exact .done data
  | cons rule rules ih =>
    rw [run]
    -- A rule that fails leaves the data to the next one as they were.
    cases applied : pass.apply data rule with
    | error failure => exact .step (.stays data nofun) (ih data)
    | ok result => exact .step (moves_of_apply applied) (ih result.2)

/-- Rules further behind are applied to what the rules before them left. -/
theorem run_append (pass : Pass) (data : Value) (rules others : List Rule) :
    pass.run data (rules ++ others) =
      ((pass.run data rules).1 ++ (pass.run (pass.run data rules).2 others).1,
        (pass.run (pass.run data rules).2 others).2) := by
  induction rules generalizing data with
  | nil => rfl
  | cons rule rules ih =>
    rw [List.cons_append, run, run]
    cases pass.apply data rule with
    | error failure => simp only [ih, List.cons_append]
    | ok result => simp only [ih, List.cons_append]

/-- With the standard access the data in the end come from those at the start by changes of slots
that the targets of rules lead to. -/
theorem run_changes_slots (pass : Pass) (access : pass.evaluator.access = .standard) (data : Value)
    (rules : List Rule) :
    Relation.ReflTransGen (fun before after => ∃ rule ∈ rules, ∃ value steps,
        readPath rule.target.path = .ok steps ∧ SlotChanged value steps before after)
      data (pass.run data rules).2 := by
  have targets : ∀ step ∈ (pass.run data rules).1, step.rule ∈ rules := by
    intro step member
    exact run_rules pass data rules ▸ List.mem_map_of_mem member
  -- Over the steps of the pass, with the rules they belong to kept at hand.
  have moves := run_moves pass data rules
  generalize (pass.run data rules).1 = taken at targets moves
  generalize (pass.run data rules).2 = left at moves ⊢
  induction moves with
  | done data => exact .refl
  | step moves _ ih =>
    obtain ⟨first, rest⟩ := List.forall_mem_cons.mp targets
    cases moves with
    | stays => exact ih rest
    | assigns _ _ puts _ =>
      obtain ⟨steps, read, changed⟩ := slotChanged_of_assign access puts
      exact .head ⟨_, first, _, steps, read, changed⟩ (ih rest)

/-- A pass without defaults and resets checks the data and leaves them alone. -/
theorem run_of_checks (pass : Pass) (data : Value) (rules : List Rule)
    (checks : ∀ rule ∈ rules, rule.payload.formula? = none) : (pass.run data rules).2 = data := by
  have steps : ∀ step ∈ (pass.run data rules).1, step.rule.payload.formula? = none := by
    intro step member
    exact checks step.rule (run_rules pass data rules ▸ List.mem_map_of_mem member)
  have moves := run_moves pass data rules
  generalize (pass.run data rules).1 = taken at steps moves
  generalize (pass.run data rules).2 = left at moves ⊢
  induction moves with
  | done data => rfl
  | step moves _ ih =>
    obtain ⟨first, rest⟩ := List.forall_mem_cons.mp steps
    cases moves with
    | stays => exact ih rest
    | assigns gives _ _ _ => exact nomatch gives.symm.trans first

end Pass

end Rulebook

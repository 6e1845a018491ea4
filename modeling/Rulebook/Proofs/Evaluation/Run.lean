import Rulebook.Proofs.Evaluation.Part

/-!
# Runs of formulas

A formula is run on a machine of its own, with its flagged names read from other contexts, and a
literal is its own value. A name reads the same whether it is bound outside or is a named variable
of that value, so a part of a formula can be run on a machine of its own as well.
-/
namespace Rulebook

namespace Machine

variable {halts : Halt → Halt → Prop} {waived : Halt → Prop} {first second : Machine}

/-- The scope on the left has further elements bound, behind those that are bound on the right. -/
structure BoundBehind (further : List (String × Value)) (left right : Scope) : Prop where
  this : left.this = right.this
  bound : left.bound = right.bound ++ further

/-- Names read alike if the further elements are, on the right, among the named variables. -/
theorem readName_boundBehind {further : List (String × Value)}
    (ordinary : ∀ halt : Halt, halt.IsOrdinary → halts halt halt)
    (named : ∀ name, Table.find? name second.environment.named =
      (Table.find? name further).or (Table.find? name first.environment.named))
    (crossContexts : first.environment.crossContexts = second.environment.crossContexts)
    (crossNames : ∀ name, name ∈ first.crossNames ↔ name ∈ second.crossNames)
    (apart : ∀ name ∈ first.crossNames, Table.find? name further = none)
    (access : first.evaluator.access = second.evaluator.access) {left right : Scope}
    (behind : BoundBehind further left right) (name : String) :
    Traced.Follows ⟨Eq, halts, waived⟩ Eq (first.readName left name)
      (second.readName right name) := by
  unfold readName
  rw [behind.bound, behind.this, Table.find?_append]
  cases Table.find? name right.bound with
  | some value => exact .pure rfl
  | none =>
    simp only [Option.none_or]
    by_cases flagged : name ∈ first.crossNames
    · -- A flagged name is none of the further elements.
      rw [apart name flagged]
      simp only [if_pos flagged, if_pos ((crossNames name).mp flagged), crossContexts]
      cases Table.find? name second.environment.crossContexts with
      | some value => exact .pure rfl
      | none => exact .value _ rfl
    · have unflagged := flagged ∘ (crossNames name).mpr
      simp only [if_neg flagged, if_neg unflagged, named]
      cases Table.find? name further with
      | some value => exact .pure rfl
      | none =>
        simp only [Option.none_or, access]
        cases Table.find? name first.environment.named with
        | some value => exact .pure rfl
        | none => exact .lift ordinary (.refl _ fun _ _ => trivial)

/-- So the scopes of a part that is run on a machine of its own correspond. -/
theorem scopesAgree_boundBehind {further : List (String × Value)}
    (ordinary : ∀ halt : Halt, halt.IsOrdinary → halts halt halt)
    (named : ∀ name, Table.find? name second.environment.named =
      (Table.find? name further).or (Table.find? name first.environment.named))
    (crossContexts : first.environment.crossContexts = second.environment.crossContexts)
    (crossNames : ∀ name, name ∈ first.crossNames ↔ name ∈ second.crossNames)
    (apart : ∀ name ∈ first.crossNames, Table.find? name further = none)
    (access : first.evaluator.access = second.evaluator.access) :
    ScopesAgree ⟨Eq, halts, waived⟩ first second (BoundBehind further) where
  literal _ := rfl
  this behind := behind.this
  name behind := readName_boundBehind ordinary named crossContexts crossNames apart access behind
  enter behind equal := ⟨equal, behind.bound⟩
  bind behind equal name := ⟨behind.this, by rw [equal, behind.bound, List.cons_append]⟩

/-- Machines over one environment read names alike. -/
theorem scopesAgree_environment (ordinary : ∀ halt : Halt, halt.IsOrdinary → halts halt halt)
    (environment : first.environment = second.environment)
    (crossNames : first.crossNames = second.crossNames)
    (access : first.evaluator.access = second.evaluator.access) :
    ScopesAgree ⟨Eq, halts, waived⟩ first second (BoundBehind []) :=
  scopesAgree_boundBehind ordinary (fun _ => by rw [environment]; rfl) (by rw [environment])
    (fun _ => by rw [crossNames]) (fun _ _ => rfl) access

end Machine

/-- A clock that stands still, for runs on fixed inputs. -/
def Clock.fixed : Clock :=
  let moment : DateTime := .ofDate ⟨2026, 3, 1, by decide⟩
  ⟨.utc, some moment, moment⟩

/-- An evaluator for runs on fixed inputs, none of which asks for a power. -/
def Evaluator.fixed : Evaluator :=
  .standard .empty

@[simp]
theorem Evaluator.adapters_fixed : Evaluator.fixed.adapters = .standard := rfl

@[simp]
theorem Evaluator.maxDepth_fixed : Evaluator.fixed.maxDepth = 256 := rfl

namespace Evaluator

/-- Naming the formula does not touch values. -/
theorem blame_eq_ok_iff {α : Type} (formula : Formula) (outcome : Except Halt α) (value : α) :
    blame formula outcome = .ok value ↔ outcome = .ok value := by
  cases outcome <;> simp [blame]

/-- A named failure is the halt with the text of the formula. -/
theorem blame_eq_error_iff {α : Type} (formula : Formula) (outcome : Except Halt α)
    (error : EvaluationError) :
    blame formula outcome = .error error ↔
      error.expression = formula.text ∧ outcome = .error error.halt := by
  obtain ⟨text, halt⟩ := error
  cases outcome <;> simp [blame, eq_comm]

/-- The machine that a formula is run on. -/
def machine (evaluator : Evaluator) (formula : Formula) (environment : Environment)
    (clock : Clock) : Machine :=
  ⟨evaluator, environment, clock, formula.crossNames⟩

/-- The run of a formula's expression, before a failure is given the formula's name. -/
def trace (evaluator : Evaluator) (formula : Formula) (environment : Environment)
    (clock : Clock) : Traced Value :=
  (evaluator.machine formula environment clock).evaluate formula.expression
    { this := environment.data } evaluator.maxDepth

/-- A literal is not run. -/
theorem run_of_literal (evaluator : Evaluator) {formula : Formula} {value : Value}
    (literal : formula.literal? = some value) (environment : Environment) (clock : Clock) :
    evaluator.run formula environment clock = ⟨.ok value, []⟩ := by
  rw [run, literal]

/-- Any other formula is reported as its expression runs. -/
theorem run_of_trace (evaluator : Evaluator) {formula : Formula} (complex : formula.literal? = none)
    (environment : Environment) (clock : Clock) :
    evaluator.run formula environment clock =
      ⟨blame formula (evaluator.trace formula environment clock).outcome,
        (evaluator.trace formula environment clock).diagnostics⟩ := by
  rw [run, complex]
  rfl

end Evaluator

/-- The run that a report tells of: its value or halt, and what was noted. -/
def Report.traced (report : Report) : Traced Value :=
  ⟨report.result.mapError (·.halt), report.diagnostics⟩

/-- The report of such a formula tells exactly of its run. -/
theorem Evaluator.traced_run_of_complex (evaluator : Evaluator) {formula : Formula}
    (complex : formula.literal? = none) (environment : Environment) (clock : Clock) :
    (evaluator.run formula environment clock).traced
      = evaluator.trace formula environment clock := by
  rw [run_of_trace _ complex, Report.traced]
  obtain ⟨outcome, diagnostics⟩ := evaluator.trace formula environment clock
  cases outcome <;> rfl

/-- With any level at all, a formula runs as its expression does, also if it is a literal. -/
theorem Evaluator.traced_run (evaluator : Evaluator) (positive : 1 ≤ evaluator.maxDepth)
    (formula : Formula) (environment : Environment) (clock : Clock) :
    (evaluator.run formula environment clock).traced
      = evaluator.trace formula environment clock := by
  cases literal : formula.literal? with
  | some value =>
    obtain ⟨levels, enough⟩ := Nat.exists_eq_succ_of_ne_zero (Nat.ne_of_gt positive)
    rw [run_of_literal _ literal, trace, enough]
    -- A literal that is run is its own value as well, given one level.
    unfold Formula.literal? at literal
    split at literal
    next expression =>
      cases literal
      rw [expression]
      rfl
    next => cases literal
  | none => exact evaluator.traced_run_of_complex literal environment clock

end Rulebook

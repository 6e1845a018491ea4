import Rulebook.Proofs.Evaluation.Run

/-!
# Levels of nesting

The limit of levels only cuts evaluations off. A run that ends within a limit in any other way than
by exceeding it ends in the same way within every larger one, because a part that runs out of levels
ends the whole run. And no part runs out if there are as many levels as the expression is high.
-/
namespace Rulebook

open Traced (Follows)

/-- A halt that tells that the levels ran out. -/
def Halt.IsLimit : Halt → Prop
  | .technical (.recursionLimit _) => True
  | _ => False

/-- An ordinary failure does not tell of levels. -/
theorem Halt.not_isLimit_of_ordinary {halt : Halt} (ordinary : halt.IsOrdinary) :
    ¬ halt.IsLimit := by
  cases halt with
  | skip reason => exact ordinary.elim
  | technical cause =>
    cases cause with
    | recursionLimit limit => exact ordinary.elim
    | _ => exact id

/-- Runs that end in the same way. The first one runs out of levels only if that is conceded, and
then nothing is asked of the second one. -/
def Agreement.unlessCutOff (conceded : Prop) : Agreement :=
  ⟨Eq, fun left right => left = right ∧ ¬ left.IsLimit, fun halt => halt.IsLimit ∧ conceded⟩

namespace Traced

variable {conceded : Prop}

/-- A call never tells that the levels ran out. -/
theorem ofCall_unlessCutOff (name : String) (called : Option (Except FunctionError Value)) :
    Follows (.unlessCutOff conceded) Eq (.ofCall name called) (.ofCall name called) := by
  cases called with
  | none => exact .halt [] ⟨rfl, id⟩
  | some outcome =>
    cases outcome with
    | ok value => exact .pure rfl
    | error error => cases error <;> exact .halt [] ⟨rfl, id⟩

/-- Unless the first run is cut off, the second one is the same. -/
theorem Follows.eq_unless_isLimit {α : Type} {first second : Traced α}
    (follows : Follows (.unlessCutOff conceded) Eq first second)
    (kept : ∀ halt, first.outcome = .error halt → ¬ halt.IsLimit) : second = first :=
  follows.eq_of_not_waived (fun _ _ same => same.1) fun halt halted waived =>
    kept halt halted waived.1

/-- Where being cut off is not conceded, the first run is not. -/
theorem Follows.not_isLimit {α : Type} {first second : Traced α}
    (follows : Follows (.unlessCutOff False) Eq first second) {halt : Halt}
    (halted : first.outcome = .error halt) : ¬ halt.IsLimit := by
  cases follows with
  | value notes same => cases halted
  | halt notes same =>
    cases halted
    exact same.2
  | waived notes other waived => exact waived.2.elim

end Traced

/-- An expression that is no higher than the levels there are runs the same with more of them. -/
theorem Machine.evaluate_of_height_le (machine : Machine) {expression : Expression}
    {levels levels' : Nat} (low : expression.height ≤ levels) (more : levels ≤ levels')
    (scope : Scope) :
    machine.evaluate expression scope levels' = machine.evaluate expression scope levels := by
  obtain ⟨spare, rfl⟩ := Nat.exists_eq_add_of_le' more
  have ordinary (halt : Halt) (kind : halt.IsOrdinary) : halt = halt ∧ ¬ halt.IsLimit :=
    ⟨rfl, halt.not_isLimit_of_ordinary kind⟩
  have agree : Machine.StepsAgree (.unlessCutOff False) machine machine :=
    .of_calls ordinary rfl rfl rfl fun name _ => Traced.ofCall_unlessCutOff name _
  have corresponding : Machine.ScopesAgree (.unlessCutOff False) machine machine _ :=
    Machine.scopesAgree_environment ordinary rfl rfl rfl
  have follows := corresponding.evaluate_sparing agree spare expression levels
    (fun fewer => absurd low (Nat.not_le_of_lt fewer)) ⟨rfl, (List.append_nil scope.bound).symm⟩
  exact follows.eq_unless_isLimit fun halt halted => follows.not_isLimit halted

namespace Evaluator

variable (evaluator : Evaluator) (formula : Formula) (environment : Environment) (clock : Clock)

/-- A run with levels to spare follows the run without them. That the latter runs out has to be
conceded only if it has fewer levels than the expression is high. -/
theorem trace_unlessCutOff (conceded : Prop) (limit spare : Nat)
    (fewer : limit < formula.expression.height → conceded) :
    Follows (.unlessCutOff conceded) Eq
      ({ evaluator with maxDepth := limit }.trace formula environment clock)
      ({ evaluator with maxDepth := spare + limit }.trace formula environment clock) := by
  have ordinary (halt : Halt) (kind : halt.IsOrdinary) : halt = halt ∧ ¬ halt.IsLimit :=
    ⟨rfl, halt.not_isLimit_of_ordinary kind⟩
  have agree : Machine.StepsAgree (.unlessCutOff conceded)
      ({ evaluator with maxDepth := limit }.machine formula environment clock)
      ({ evaluator with maxDepth := spare + limit }.machine formula environment clock) :=
    .of_calls ordinary rfl rfl rfl fun name _ => Traced.ofCall_unlessCutOff name _
  have corresponding : Machine.ScopesAgree (.unlessCutOff conceded)
      ({ evaluator with maxDepth := limit }.machine formula environment clock)
      ({ evaluator with maxDepth := spare + limit }.machine formula environment clock) _ :=
    Machine.scopesAgree_environment ordinary rfl rfl rfl
  exact corresponding.evaluate_sparing agree spare formula.expression limit
    (fun short => .inl ⟨trivial, fewer short⟩) ⟨rfl, rfl⟩

/-- A report tells of no exceeded limit exactly if its run does not end with one. -/
theorem result_ne_limit_iff (complex : formula.literal? = none) :
    (∀ text told, (evaluator.run formula environment clock).result
        ≠ .error ⟨text, .technical (.recursionLimit told)⟩) ↔
      ∀ halt, (evaluator.trace formula environment clock).outcome = .error halt →
        ¬ halt.IsLimit := by
  simp only [run_of_trace _ complex, ne_eq, blame_eq_error_iff, not_and]
  constructor
  · intro kept halt halted isLimit
    unfold Halt.IsLimit at isLimit
    split at isLimit
    next told => exact kept formula.text told rfl halted
    next => exact isLimit
  · intro kept text told _ halted
    exact kept _ halted trivial

/-- The limit of levels only cuts off. A run that does not end by exceeding it has the same result
and the same diagnostics within every larger limit, and no run exceeds a limit of as many levels as
the expression is high. -/
theorem limit_only_cuts_off :
    (∀ limit limit', limit ≤ limit' →
      (∀ text told, ({ evaluator with maxDepth := limit }.run formula environment clock).result
        ≠ .error ⟨text, .technical (.recursionLimit told)⟩) →
      { evaluator with maxDepth := limit' }.run formula environment clock
        = { evaluator with maxDepth := limit }.run formula environment clock) ∧
    ∀ limit, formula.expression.height ≤ limit → ∀ text told,
      ({ evaluator with maxDepth := limit }.run formula environment clock).result
        ≠ .error ⟨text, .technical (.recursionLimit told)⟩ := by
  cases literal : formula.literal? with
  | some value =>
    -- A literal is its own value within every limit, even within none.
    refine ⟨fun limit limit' _ _ => ?_, fun limit _ text told => ?_⟩
    · rw [run_of_literal _ literal, run_of_literal _ literal]
    · rw [run_of_literal _ literal]
      exact nofun
  | none =>
    constructor
    · -- The shorter run may be cut off in general, but this one is not.
      intro limit limit' larger kept
      rw [result_ne_limit_iff _ _ _ _ literal] at kept
      obtain ⟨spare, rfl⟩ := Nat.exists_eq_add_of_le' larger
      have follows := trace_unlessCutOff evaluator formula environment clock True limit spare
        fun _ => trivial
      rw [run_of_trace _ literal, run_of_trace _ literal, follows.eq_unless_isLimit kept]
    · -- With enough levels a run follows itself without conceding that it is cut off.
      intro limit enough
      rw [result_ne_limit_iff _ _ _ _ literal]
      have follows := trace_unlessCutOff evaluator formula environment clock False limit 0
        fun fewer => absurd enough (Nat.not_le_of_lt fewer)
      exact fun halt halted => follows.not_isLimit halted

/-- Elements that are all true are so within three levels, since the right operand, which goes
deeper, is not reached for any of them; that the first operand takes the third level shows within
two. -/
theorem limit_only_cuts_off_of_disjunctions :
    let flag : Expression := .identifier "flag"
    let formula : Formula := ⟨.quantified .every "flag"
      (.literal (.list [.bool true, .bool true, .bool true]))
      (.binary .or flag (.unary .not (.unary .not flag))), []⟩
    let within (limit : Nat) : Report :=
      { Evaluator.fixed with maxDepth := limit }.run formula ⟨.null, [], []⟩ .fixed
    (within 2).result = .error ⟨formula.text, .technical (.recursionLimit 2)⟩ ∧
      (within 3).result = .ok (.bool true) ∧ within 4 = within 3 ∧
      formula.expression.height ≤ 5 ∧
      ∀ text told, (within 5).result ≠ .error ⟨text, .technical (.recursionLimit told)⟩ := by
  intro flag formula within
  have two : (within 2).result = .error ⟨formula.text, .technical (.recursionLimit 2)⟩ := by
    simp only [within, run, formula, Formula.literal?, Machine.evaluate, Machine.elements,
      adapters_fixed, AdapterRegistry.elements_standard]
    rfl
  have three : (within 3).result = .ok (.bool true) := by
    simp only [within, run, formula, Formula.literal?, Machine.evaluate, Machine.elements,
      adapters_fixed, AdapterRegistry.elements_standard]
    rfl
  have height : formula.expression.height ≤ 5 := by decide
  refine ⟨two, three, ?_, height, ?_⟩
  · refine (limit_only_cuts_off .fixed formula ⟨.null, [], []⟩ .fixed).1 3 4 (by decide) ?_
    intro text told failed
    cases three.symm.trans failed
  · exact (limit_only_cuts_off .fixed formula ⟨.null, [], []⟩ .fixed).2 5 height

end Evaluator

end Rulebook

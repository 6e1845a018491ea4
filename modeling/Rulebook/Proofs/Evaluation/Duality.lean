import Rulebook.Proofs.Evaluation.InTurn
import Rulebook.Proofs.Evaluation.Levels

/-!
# Quantifiers and negation

Every element satisfies a predicate just if it is not the case that some element satisfies its
negation. Both searches run the predicate over the same elements in the same order, and since the
answers are opposite, both stop at the same element; null, which is false as an answer, is opposite
to its negation as well. A halt at an element ends both, only that a mismatch is told of different
operators.
-/
namespace Rulebook

open Traced (Follows)

/-- Two halts of one kind: skips for the same reason, or technical failures. -/
def Halt.SameKind : Halt → Halt → Prop
  | .skip reason, .skip reason' => reason = reason'
  | .technical _, .technical _ => True
  | .skip _, .technical _ | .technical _, .skip _ => False

/-- Every halt is of its own kind. -/
theorem Halt.SameKind.refl (halt : Halt) : halt.SameKind halt := by
  cases halt with
  | technical cause => exact trivial
  | skip reason => exact rfl

/-- Runs that end with the same value or with halts of one kind. -/
def Agreement.upToCause : Agreement := ⟨Eq, Halt.SameKind, fun _ => False⟩

/-- One and the same truth value. -/
def Value.SameTruth (left right : Value) : Prop :=
  ∃ truth, left = .bool truth ∧ right = .bool truth

namespace Traced

variable {α β : Type}

/-- Every run follows itself. -/
theorem Follows.refl_upToCause (run : Traced α) : Follows .upToCause Eq run run := by
  obtain ⟨outcome, notes⟩ := run
  cases outcome with
  | ok value => exact .value notes rfl
  | error halt => exact .halt notes (.refl halt)

/-- The same run, continued in two ways. -/
theorem Follows.continued {related : β → β → Prop} (run : Traced α) {next next' : α → Traced β}
    (continues : ∀ value, Follows .upToCause related (next value) (next' value)) :
    Follows .upToCause related (run >>= next) (run >>= next') :=
  (refl_upToCause run).bind fun value _ same => same ▸ continues value

end Traced

namespace Operator

/-- A value and its negation are opposite as conditions, and where the one is no condition, there is
no negation. -/
theorem condition_negated (operator operator' : String) (value : Value) :
    Follows .upToCause (fun answer answer' => answer' = !answer)
      (.ofExcept (condition operator value))
      (.ofExcept (applyUnary .not value) >>= fun negated =>
        .ofExcept (condition operator' negated)) := by
  unfold applyUnary condition
  -- Only truth values and null have a negation; anything else halts on both sides.
  cases value.bare with
  | bool truth => exact .value [] rfl
  | null => exact .value [] rfl
  | _ => exact .halt [] trivial

end Operator

namespace Machine

variable (machine : Machine) {name : String} {source predicate : Expression}

/-- The quantifier "every" and the denial of "some" for the negated predicate run alike, in any
scope and with all the levels they can take. -/
theorem evaluate_every_follows {levels : Nat} (sourceLow : source.height ≤ levels + 1)
    (predicateLow : predicate.height ≤ levels) (scope : Scope) :
    Follows .upToCause Value.SameTruth
      (machine.evaluate (.quantified .every name source predicate) scope (levels + 3))
      (machine.evaluate (.unary .not (.quantified .some name source (.unary .not predicate)))
        scope (levels + 3)) := by
  have more : levels ≤ levels + 2 := Nat.le_add_right _ _
  simp only [evaluate, bind_assoc, machine.evaluate_of_height_le sourceLow (Nat.le_succ _),
    machine.evaluate_of_height_le predicateLow more]
  refine Follows.continued _ fun collection => Follows.continued _ fun elements => ?_
  -- An element that fails the predicate settles both searches, each by the answer it waits for.
  have settles : ∀ answer answer' : Bool, answer' = (!answer) →
      (answer = false ↔ answer' = true) := by decide
  have found : Follows .upToCause Eq
      (Traced.search false (fun element => holds "satisfies" (machine.evaluate predicate
        { scope with bound := (name, element) :: scope.bound } levels)) elements)
      (Traced.search true (fun element => holds "satisfies" (machine.evaluate predicate
        { scope with bound := (name, element) :: scope.bound } levels >>= fun value =>
          .ofExcept (Operator.applyUnary .not value))) elements) := by
    refine .search_of_settles settles (List.forall₂_same.mpr fun element _ => rfl)
      fun element _ same => ?_
    subst same
    simp only [holds, bind_assoc]
    exact Follows.continued _ fun value => Operator.condition_negated _ _ value
  refine found.bind fun failing _ same => ?_
  subst same
  cases failing with
  | true => exact .pure ⟨false, rfl, rfl⟩
  | false => exact .pure ⟨true, rfl, rfl⟩

end Machine

namespace Evaluator

/-- What follows for the reports of runs that end with related values or with halts of one kind. -/
theorem reports_upToCause {evaluator : Evaluator} {formula formula' : Formula}
    {environment : Environment} {clock : Clock} {related : Value → Value → Prop}
    (complex : formula.literal? = none) (complex' : formula'.literal? = none)
    (follows : Follows .upToCause related (evaluator.trace formula environment clock)
      (evaluator.trace formula' environment clock)) :
    let report := evaluator.run formula environment clock
    let report' := evaluator.run formula' environment clock
    report.diagnostics = report'.diagnostics ∧
      ((∃ value value', report.result = .ok value ∧ report'.result = .ok value' ∧
          related value value') ∨
        ∃ error error', report.result = .error error ∧ report'.result = .error error' ∧
          error.halt.SameKind error'.halt) := by
  simp only [run_of_trace _ complex, run_of_trace _ complex']
  -- Only how the two runs end matters from here on.
  generalize evaluator.trace formula environment clock = run at follows ⊢
  generalize evaluator.trace formula' environment clock = run' at follows ⊢
  cases follows with
  | value notes same => exact ⟨rfl, .inl ⟨_, _, rfl, rfl, same⟩⟩
  | halt notes same => exact ⟨rfl, .inr ⟨_, _, rfl, rfl, same⟩⟩
  | waived notes other waived => exact waived.elim

/-- Every element satisfies a predicate just if it is not so that some element satisfies its
negation. With as many levels as the denial takes, which is the higher formula of the two, both come
to the same truth value, or both skip for the same reason, or both fail technically; in each case
they note the same. -/
theorem quantifier_duality (evaluator : Evaluator) (name : String) (source predicate : Expression)
    (flagged : List String) (environment : Environment) (clock : Clock)
    (low : (Expression.unary .not (.quantified .some name source (.unary .not predicate))).height
      ≤ evaluator.maxDepth) :
    let every := evaluator.run ⟨.quantified .every name source predicate, flagged⟩ environment clock
    let denied := evaluator.run
      ⟨.unary .not (.quantified .some name source (.unary .not predicate)), flagged⟩
      environment clock
    every.diagnostics = denied.diagnostics ∧
      ((∃ truth, every.result = .ok (.bool truth) ∧ denied.result = .ok (.bool truth)) ∨
        ∃ error error', every.result = .error error ∧ denied.result = .error error' ∧
          error.halt.SameKind error'.halt) := by
  simp only [Expression.height] at low
  -- The denial has three levels more than the predicate.
  obtain ⟨levels, enough⟩ : ∃ levels, evaluator.maxDepth = levels + 3 :=
    Nat.exists_eq_add_of_le' (by omega)
  -- The formulas read the same names, so their machines are the same.
  have follows : Follows .upToCause Value.SameTruth
      (evaluator.trace ⟨.quantified .every name source predicate, flagged⟩ environment clock)
      (evaluator.trace
        ⟨.unary .not (.quantified .some name source (.unary .not predicate)), flagged⟩
        environment clock) := by
    unfold trace
    rw [enough]
    exact Machine.evaluate_every_follows _ (by omega) (by omega) _
  obtain ⟨notes, ⟨_, _, holds, holds', truth, rfl, rfl⟩ | failed⟩ :=
    reports_upToCause rfl rfl follows
  · exact ⟨notes, .inl ⟨truth, holds, holds'⟩⟩
  · exact ⟨notes, .inr failed⟩

/-- A reference that is not resolved is null for the first element already, which fails the
predicate: that is noted once, and neither search goes on. -/
theorem quantifier_duality_of_unresolved :
    let source : Expression := .literal (.list [.bool true, .bool true])
    let denial : Expression :=
      .unary .not (.quantified .some "each" source (.unary .not (.identifier "Rates")))
    let run (expression : Expression) : Report :=
      { Evaluator.fixed with maxDepth := 4 }.run ⟨expression, ["Rates"]⟩ ⟨.null, [], []⟩ .fixed
    let every := run (.quantified .every "each" source (.identifier "Rates"))
    denial.height ≤ 4 ∧ every.result = .ok (.bool false) ∧
      (run denial).result = .ok (.bool false) ∧
      (run denial).diagnostics = [.unresolvedReference "Rates"] := by
  intro source denial run every
  have low : denial.height ≤ 4 := by decide
  have failed : every = ⟨.ok (.bool false), [.unresolvedReference "Rates"]⟩ := by
    simp only [every, run, Evaluator.run, Formula.literal?, Machine.evaluate, Machine.elements,
      adapters_fixed, AdapterRegistry.elements_standard, source]
    rfl
  obtain ⟨notes, ⟨truth, same, same'⟩ | ⟨error, _, same, _⟩⟩ :=
    quantifier_duality { Evaluator.fixed with maxDepth := 4 } "each" source (.identifier "Rates")
      ["Rates"] ⟨.null, [], []⟩ .fixed low
  · cases (congrArg Report.result failed).symm.trans same
    exact ⟨low, same, same', notes.symm.trans (congrArg Report.diagnostics failed)⟩
  · cases (congrArg Report.result failed).symm.trans same

end Evaluator

end Rulebook

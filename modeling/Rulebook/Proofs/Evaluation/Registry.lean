import Rulebook.Proofs.Evaluation.Run

/-!
# Functions that fail

A function's failure ends the evaluation that called it: no operator, conditional, filter or
quantifier goes on after it. So registries that agree on the calls that succeed agree on the
evaluations that succeed, a registry that differs on skipped calls alone changes only evaluations
that skip, and an evaluation skips for the reason that some call gave.
-/
namespace Rulebook

/-- A call gives nothing exactly if there is no function of that name. -/
theorem FunctionRegistry.call?_eq_none_iff (registry : FunctionRegistry) (name : String)
    (arguments : List Value) (clock : Clock) :
    registry.call? name arguments clock = none ↔ registry.contains name = false := by
  simp [call?, contains]

open Traced (Follows)

namespace Evaluator

section

variable (first second : FunctionRegistry) (evaluator : Evaluator) (formula : Formula)
  (environment : Environment) (clock : Clock)

/-- Evaluations under two registries follow each other if all calls do. -/
theorem trace_follows (halts : Halt → Halt → Prop) (waived : Halt → Prop)
    (technical : ∀ cause : TechnicalCause, halts (.technical cause) (.technical cause))
    (call : ∀ name arguments, Follows ⟨Eq, halts, waived⟩ Eq
      (.ofCall name (first.call? name arguments clock))
      (.ofCall name (second.call? name arguments clock))) :
    Follows ⟨Eq, halts, waived⟩ Eq
      ({ evaluator with functions := first }.trace formula environment clock)
      ({ evaluator with functions := second }.trace formula environment clock) := by
  have ordinary : ∀ halt : Halt, halt.IsOrdinary → halts halt halt
    | .technical cause, _ => technical cause
  have agree : Machine.Agree ⟨Eq, halts, waived⟩
      ({ evaluator with functions := first }.machine formula environment clock)
      ({ evaluator with functions := second }.machine formula environment clock) :=
    .of_calls ordinary rfl rfl rfl (.inr (technical _)) call
  have corresponding : Machine.ScopesAgree ⟨Eq, halts, waived⟩
      ({ evaluator with functions := first }.machine formula environment clock)
      ({ evaluator with functions := second }.machine formula environment clock) _ :=
    Machine.scopesAgree_environment ordinary rfl rfl rfl
  exact corresponding.evaluate agree formula.expression _ ⟨rfl, rfl⟩

/-- Two runs of a formula are the same if the traces are. -/
theorem run_eq_of_trace_eq {evaluator evaluator' : Evaluator} {formula : Formula}
    {environment : Environment} {clock : Clock}
    (same : formula.literal? = none →
      evaluator'.trace formula environment clock = evaluator.trace formula environment clock) :
    evaluator'.run formula environment clock = evaluator.run formula environment clock := by
  cases literal : formula.literal? with
  | some value => rw [run_of_literal _ literal, run_of_literal _ literal]
  | none => rw [run_of_trace _ literal, run_of_trace _ literal, same literal]

/-- An evaluation that succeeds is the same under a registry that agrees on the calls that succeed.
-/
theorem run_eq_of_success
    (agree : ∀ name arguments value, first.call? name arguments clock = some (.ok value) →
      second.call? name arguments clock = some (.ok value)) {value : Value}
    (succeeds : ({ evaluator with functions := first }.run formula environment clock).result
      = .ok value) :
    { evaluator with functions := second }.run formula environment clock
      = { evaluator with functions := first }.run formula environment clock := by
  -- Nothing is asked of the second registry once a call fails.
  have follows := trace_follows first second evaluator formula environment clock Eq
    (fun _ => True) (fun _ => rfl) fun name arguments => by
      cases called : first.call? name arguments clock with
      | none => exact .waived _ _ trivial
      | some outcome =>
        cases outcome with
        | ok value =>
          rw [agree name arguments value called]
          exact .pure rfl
        | error error => cases error <;> exact .waived _ _ trivial
  refine run_eq_of_trace_eq fun literal => ?_
  rw [run_of_trace _ literal, blame_eq_ok_iff] at succeeds
  refine follows.eq_of_not_waived (fun _ _ same => same) fun halt halted => ?_
  rw [succeeds] at halted
  cases halted

/-- An evaluation that is not skipped is the same under a registry that agrees on the calls that are
not skipped. -/
theorem run_eq_of_no_skip (names : ∀ name, first.contains name = second.contains name)
    (agree : ∀ name arguments outcome, first.call? name arguments clock = some outcome →
      (∀ reason, outcome ≠ .error (.skip reason)) →
        second.call? name arguments clock = some outcome)
    (goes : ∀ text reason, ({ evaluator with functions := first }.run formula environment
      clock).result ≠ .error ⟨text, .skip reason⟩) :
    { evaluator with functions := second }.run formula environment clock
      = { evaluator with functions := first }.run formula environment clock := by
  have follows := trace_follows first second evaluator formula environment clock Eq
    (fun halt => ∃ reason, halt = .skip reason) (fun _ => rfl) fun name arguments => by
      cases called : first.call? name arguments clock with
      | none =>
        -- An unknown function is a failure of its own, so the names have to be the same.
        have unknown := (first.call?_eq_none_iff name arguments clock).mp called
        rw [names, ← second.call?_eq_none_iff name arguments clock] at unknown
        rw [unknown]
        exact .halt _ rfl
      | some outcome =>
        have kept := agree name arguments outcome called
        cases outcome with
        | ok value =>
          rw [kept (by simp)]
          exact .pure rfl
        | error error =>
          cases error with
          | skip reason => exact .waived _ _ ⟨reason, rfl⟩
          | _ =>
            rw [kept (by simp)]
            exact .halt _ rfl
  refine run_eq_of_trace_eq fun literal => ?_
  refine follows.eq_of_not_waived (fun _ _ same => same) ?_
  rintro halt halted ⟨reason, rfl⟩
  apply goes formula.text reason
  rw [run_of_trace _ literal, blame_eq_error_iff]
  exact ⟨rfl, halted⟩

/-- An evaluation that is skipped has called a function that skips. -/
theorem skip_of_run_skip {text reason : String}
    (skips : ({ evaluator with functions := first }.run formula environment clock).result
      = .error ⟨text, .skip reason⟩) :
    ∃ name arguments, first.call? name arguments clock = some (.error (.skip reason)) := by
  -- The run follows itself, and every skip in it comes from a call.
  have follows := trace_follows first first evaluator formula environment clock
    (fun left right => left = right ∧ ∀ reason, left = .skip reason →
      ∃ name arguments, first.call? name arguments clock = some (.error (.skip reason)))
    (fun _ => False) (fun _ => ⟨rfl, by simp⟩)
    fun name arguments => by
      cases called : first.call? name arguments clock with
      | none => exact .halt _ ⟨rfl, by simp⟩
      | some outcome =>
        cases outcome with
        | ok value => exact .pure rfl
        | error error =>
          cases error with
          | skip reason =>
            refine .halt _ ⟨rfl, ?_⟩
            rintro _ ⟨rfl⟩
            exact ⟨name, arguments, called⟩
          | _ => exact .halt _ ⟨rfl, by simp⟩
  cases literal : formula.literal? with
  | some value =>
    rw [run_of_literal _ literal] at skips
    cases skips
  | none =>
    rw [run_of_trace _ literal, blame_eq_error_iff] at skips
    obtain ⟨-, halted⟩ := skips
    generalize Evaluator.trace _ _ _ _ = run at follows halted
    cases follows with
    | value notes same => cases halted
    | halt notes same =>
      cases halted
      exact same.2 reason rfl
    | waived notes other waived => exact waived.elim

/-- Failures of functions are never swallowed. Of two registries, the second one

* gives every evaluation that succeeds under the first the same report, if it agrees on the calls
  that succeed there;
* gives every evaluation that is not skipped under the first the same report, if it has the same
  names and agrees on the calls that are not skipped there.

An evaluation that is skipped gives the reason of a call that is skipped. -/
theorem function_failures_surface :
    ((∀ name arguments value, first.call? name arguments clock = some (.ok value) →
        second.call? name arguments clock = some (.ok value)) →
      ∀ value, ({ evaluator with functions := first }.run formula environment clock).result
          = .ok value →
        { evaluator with functions := second }.run formula environment clock
          = { evaluator with functions := first }.run formula environment clock) ∧
    ((∀ name, first.contains name = second.contains name) →
      (∀ name arguments outcome, first.call? name arguments clock = some outcome →
        (∀ reason, outcome ≠ .error (.skip reason)) →
          second.call? name arguments clock = some outcome) →
      (∀ text reason, ({ evaluator with functions := first }.run formula environment clock).result
          ≠ .error ⟨text, .skip reason⟩) →
        { evaluator with functions := second }.run formula environment clock
          = { evaluator with functions := first }.run formula environment clock) ∧
    ∀ text reason, ({ evaluator with functions := first }.run formula environment clock).result
        = .error ⟨text, .skip reason⟩ →
      ∃ name arguments, first.call? name arguments clock = some (.error (.skip reason)) :=
  ⟨fun agree _ => run_eq_of_success first second evaluator formula environment clock agree,
    run_eq_of_no_skip first second evaluator formula environment clock,
    fun _ _ => skip_of_run_skip first evaluator formula environment clock⟩

end

/-- A registry with a fee that is always known and a refusal. -/
def feeRegistry (refusal : Except FunctionError Value) : FunctionRegistry :=
  ⟨[("Fee", fun _ _ => .ok (.number .one)), ("Refuse", fun _ _ => refusal)]⟩

/-- Calls that do not come to the refusal are the same whatever it is. -/
theorem call?_feeRegistry {refusal outcome : Except FunctionError Value}
    (differs : refusal ≠ outcome) (refusal' : Except FunctionError Value) (name : String)
    (arguments : List Value) (clock : Clock)
    (called : (feeRegistry refusal).call? name arguments clock = some outcome) :
    (feeRegistry refusal').call? name arguments clock = some outcome := by
  simp only [feeRegistry, FunctionRegistry.call?, FunctionRegistry.find?, Table.find?] at called ⊢
  split at called
  next fee => rwa [if_pos fee]
  next =>
    split at called
    next => exact absurd (Option.some.inj called) differs
    next => cases called

/-- A refusal that skips, in place of one that is null, changes neither an evaluation that does not
reach it nor one that fails before it; a disjunction that reaches it is skipped. -/
theorem function_failures_surface_of_fees :
    let evaluator := Evaluator.fixed
    let skipping := feeRegistry (.error (.skip "no cover"))
    let answering := feeRegistry (.ok .null)
    let fee : Expression := .call "Fee" []
    let refusal : Expression := .call "Refuse" []
    let reached : Formula := ⟨.ifThenElse (.literal (.bool true)) fee refusal, []⟩
    let failing : Formula := ⟨.collection [.property fee "name", refusal], []⟩
    let skipped : Formula := ⟨.binary .or refusal (.literal (.bool true)), []⟩
    ({ evaluator with functions := answering }.run reached ⟨.null, [], []⟩ .fixed
        = { evaluator with functions := skipping }.run reached ⟨.null, [], []⟩ .fixed) ∧
      ({ evaluator with functions := answering }.run failing ⟨.null, [], []⟩ .fixed
        = { evaluator with functions := skipping }.run failing ⟨.null, [], []⟩ .fixed) ∧
      ({ evaluator with functions := skipping }.run skipped ⟨.null, [], []⟩ .fixed).result
        = .error ⟨skipped.text, .skip "no cover"⟩ ∧
      ∃ name arguments,
        skipping.call? name arguments .fixed = some (.error (.skip "no cover")) := by
  intro evaluator skipping answering fee refusal reached failing skipped
  have skips : ({ evaluator with functions := skipping }.run skipped ⟨.null, [], []⟩ .fixed).result
      = .error ⟨skipped.text, .skip "no cover"⟩ := rfl
  refine ⟨?_, ?_, skips, ?_⟩
  · refine (function_failures_surface skipping answering evaluator reached ⟨.null, [], []⟩
      .fixed).1 ?_ (.number .one) ?_
    · intro name arguments value
      exact call?_feeRegistry (by simp) _ name arguments _
    · rfl
  · refine (function_failures_surface skipping answering evaluator failing ⟨.null, [], []⟩
      .fixed).2.1 ?_ ?_ ?_
    · intro name
      simp only [skipping, answering, feeRegistry, FunctionRegistry.contains,
        FunctionRegistry.find?, Table.find?]
      split
      next => rfl
      next => split <;> rfl
    · intro name arguments outcome called unskipped
      exact call?_feeRegistry (unskipped _).symm _ name arguments _ called
    · intro text reason
      have failed : ({ evaluator with functions := skipping }.run failing ⟨.null, [], []⟩
          .fixed).result
            = .error ⟨failing.text, .technical (.property (.notAnObject "name" "Number"))⟩ := rfl
      rw [failed]
      simp
  · exact (function_failures_surface skipping answering evaluator skipped ⟨.null, [], []⟩
      .fixed).2.2 skipped.text "no cover" skips

end Evaluator

end Rulebook

import Rulebook.Proofs.Evaluation.Run
import Rulebook.Proofs.Expression.Reference

/-!
# Named variables

A name is looked for among the named variables only if nothing of that name is bound and it is not
flagged. So an evaluation depends on the named variables that its expression reads and on no others.
The references of a formula list those that are read outside of filters; inside the predicate of a
filter named variables are read as well, before the element is, and these are not listed.
-/
namespace Rulebook

namespace Expression

mutual

/-- The names that the predicates of filters read from outside of the expression. -/
def predicateNames (bound : List String) : Expression → List String
  | literal _ | this | identifier _ => []
  | property base _ => predicateNames bound base
  | index base position => predicateNames bound base ++ predicateNames bound position
  | unary _ operand => predicateNames bound operand
  | binary _ left right => predicateNames bound left ++ predicateNames bound right
  | call _ arguments => predicateNamesAll bound arguments
  | collection items => predicateNamesAll bound items
  | filter source predicate =>
    predicateNames bound source ++ (freeNames bound predicate ++ predicateNames bound predicate)
  | forEach element source body =>
    predicateNames bound source ++ predicateNames (element :: bound) body
  | quantified _ element source predicate =>
    predicateNames bound source ++ predicateNames (element :: bound) predicate
  | ifThen condition consequence =>
    predicateNames bound condition ++ predicateNames bound consequence
  | ifThenElse condition consequence alternative =>
    predicateNames bound condition ++ predicateNames bound consequence
      ++ predicateNames bound alternative
  | instanceOf operand _ => predicateNames bound operand
  | cast _ operand => predicateNames bound operand

def predicateNamesAll (bound : List String) : List Expression → List String
  | [] => []
  | expression :: expressions =>
    predicateNames bound expression ++ predicateNamesAll bound expressions

end

end Expression

/-- Both runs end with the same value or the same halt. -/
abbrev Agreement.same : Agreement := ⟨Eq, Eq, fun _ => False⟩

namespace Traced.Follows

variable {α : Type}

/-- Every run follows itself. -/
theorem refl (run : Traced α) : Follows Agreement.same Eq run run := by
  obtain ⟨outcome, notes⟩ := run
  cases outcome with
  | ok value => exact .value notes rfl
  | error halt => exact .halt notes rfl

/-- Runs that follow each other without concessions are equal. -/
theorem eq {first second : Traced α} (follows : Follows Agreement.same Eq first second) :
    first = second :=
  (follows.eq_of_not_waived (fun _ _ same => same) fun _ _ => id).symm

end Traced.Follows

namespace Machine

open Traced (Follows)

/-- Machines that differ in the data and the named variables alone. -/
structure SameOutside (first second : Machine) : Prop where
  evaluator : first.evaluator = second.evaluator
  clock : first.clock = second.clock
  crossNames : first.crossNames = second.crossNames
  crossContexts : ∀ name, Table.find? name first.environment.crossContexts =
    Table.find? name second.environment.crossContexts

/-- Both machines have the same named variables among some names; flagged names do not count. -/
def AgreeOn (first second : Machine) (names : List String) : Prop :=
  ∀ name ∈ names, name ∉ first.crossNames →
    Table.find? name first.environment.named = Table.find? name second.environment.named

variable {first second : Machine}

/-- Agreeing on names of two lists is agreeing on both of them. -/
theorem agreeOn_append {names others : List String} :
    AgreeOn first second (names ++ others) ↔
      AgreeOn first second names ∧ AgreeOn first second others :=
  List.forall_mem_append

namespace SameOutside

/-- Machines that differ in data and named variables only agree in their steps. -/
theorem agree (same : SameOutside first second) : Agree .same first second :=
  .of_calls (fun _ _ => rfl) (by rw [same.evaluator]) (by rw [same.evaluator])
    (by rw [same.evaluator]) (.inr (by rw [same.evaluator])) fun name arguments => by
      rw [same.evaluator, same.clock]
      exact .refl _

/-- A name reads alike unless it is a named variable on which they differ. -/
theorem readName (same : SameOutside first second) (scope : Scope) (name : String)
    (free : AgreeOn first second
      ((Expression.identifier name).freeNames (Table.names scope.bound))) :
    first.readName scope name = second.readName scope name := by
  unfold Machine.readName
  rw [same.crossNames, same.crossContexts, same.evaluator]
  cases found : Table.find? name scope.bound with
  | some value => rfl
  | none =>
    have unbound := (Table.find?_eq_none_iff name scope.bound).mp found
    rw [Expression.freeNames, if_neg unbound] at free
    -- A flagged name is not looked for among the named variables.
    by_cases flagged : name ∈ second.crossNames
    · simp only [if_pos flagged]
    · rw [free name List.mem_cons_self (same.crossNames ▸ flagged)]

mutual

/-- An expression runs alike if the named variables agree that it reads, in the predicates of
filters or outside of them. The names that are bound are those of the scope, so that every binder
and every element lead to a case of the same statement. -/
theorem evaluate (same : SameOutside first second) : ∀ (expression : Expression) (levels : Nat)
    (scope : Scope), AgreeOn first second (expression.freeNames (Table.names scope.bound)) →
      AgreeOn first second (expression.predicateNames (Table.names scope.bound)) →
        Follows .same Eq (first.evaluate expression scope levels)
          (second.evaluate expression scope levels)
  | expression, 0, _, _, _ => same.agree.evaluate_zero expression expression
  | .literal _, _ + 1, _, _, _ => .pure rfl
  | .this, _ + 1, _, _, _ => .pure rfl
  | .identifier name, _ + 1, scope, free, _ => by
    have read := same.readName scope name free
    simp only [Machine.evaluate, read]
    exact .refl _
  | .property base name, level + 1, scope, free, predicates =>
    same.agree.evaluate_property name (same.evaluate base level scope free predicates)
  | .index base position, level + 1, scope, free, predicates => by
    simp only [Expression.freeNames, Expression.predicateNames, agreeOn_append] at free predicates
    exact same.agree.evaluate_index (same.evaluate base level scope free.1 predicates.1)
      (same.evaluate position level scope free.2 predicates.2)
  | .unary operator operand, level + 1, scope, free, predicates =>
    same.agree.evaluate_unary operator (same.evaluate operand level scope free predicates)
  | .binary operator left right, level + 1, scope, free, predicates => by
    simp only [Expression.freeNames, Expression.predicateNames, agreeOn_append] at free predicates
    exact same.agree.evaluate_binary operator (same.evaluate left level scope free.1 predicates.1)
      (same.evaluate right level scope free.2 predicates.2)
  | .call name arguments, level + 1, scope, free, predicates =>
    same.agree.evaluate_call name (same.evaluateAll arguments level scope free predicates)
  | .collection items, level + 1, scope, free, predicates =>
    same.agree.evaluate_collection (same.evaluateAll items level scope free predicates)
  | .filter source predicate, level + 1, scope, free, predicates => by
    -- What is free in the predicate is not among the free names of the filter.
    simp only [Expression.predicateNames, agreeOn_append] at predicates
    refine same.agree.evaluate_filter (same.evaluate source level scope free predicates.1) ?_
    rintro element _ rfl
    exact same.evaluate predicate level _ predicates.2.1 predicates.2.2
  | .forEach name source body, level + 1, scope, free, predicates => by
    simp only [Expression.freeNames, Expression.predicateNames, agreeOn_append] at free predicates
    refine same.agree.evaluate_forEach name name
      (same.evaluate source level scope free.1 predicates.1) ?_
    rintro element _ rfl
    exact same.evaluate body level _ free.2 predicates.2
  | .quantified quantifier name source predicate, level + 1, scope, free, predicates => by
    simp only [Expression.freeNames, Expression.predicateNames, agreeOn_append] at free predicates
    refine same.agree.evaluate_quantified quantifier name name
      (same.evaluate source level scope free.1 predicates.1) ?_
    rintro element _ rfl
    exact same.evaluate predicate level _ free.2 predicates.2
  | .ifThen condition consequence, level + 1, scope, free, predicates => by
    simp only [Expression.freeNames, Expression.predicateNames, agreeOn_append] at free predicates
    exact same.agree.evaluate_ifThen (same.evaluate condition level scope free.1 predicates.1)
      (same.evaluate consequence level scope free.2 predicates.2)
  | .ifThenElse condition consequence alternative, level + 1, scope, free, predicates => by
    simp only [Expression.freeNames, Expression.predicateNames, agreeOn_append] at free predicates
    exact same.agree.evaluate_ifThenElse
      (same.evaluate condition level scope free.1.1 predicates.1.1)
      (same.evaluate consequence level scope free.1.2 predicates.1.2)
      (same.evaluate alternative level scope free.2 predicates.2)
  | .instanceOf operand typeName, level + 1, scope, free, predicates =>
    same.agree.evaluate_instanceOf typeName (same.evaluate operand level scope free predicates)
  | .cast typeName operand, level + 1, scope, free, predicates =>
    same.agree.evaluate_cast typeName (same.evaluate operand level scope free predicates)

theorem evaluateAll (same : SameOutside first second) : ∀ (expressions : List Expression)
    (levels : Nat) (scope : Scope),
      AgreeOn first second (Expression.freeNamesAll (Table.names scope.bound) expressions) →
      AgreeOn first second (Expression.predicateNamesAll (Table.names scope.bound) expressions) →
        Follows .same (List.Forall₂ Eq) (first.evaluateAll expressions scope levels)
          (second.evaluateAll expressions scope levels)
  | [], _, _, _, _ => .pure .nil
  | expression :: rest, levels, scope, free, predicates => by
    simp only [Expression.freeNamesAll, Expression.predicateNamesAll, agreeOn_append]
      at free predicates
    exact Agree.evaluateAll_cons (same.evaluate expression levels scope free.1 predicates.1)
      (same.evaluateAll rest levels scope free.2 predicates.2)

end

end SameOutside

end Machine

namespace Evaluator

/-- An evaluation reads no named variable but those that the formula's references list and those
that a predicate of a filter reads under a name that is not flagged. -/
theorem run_reads_references (evaluator : Evaluator) (formula : Formula) (clock : Clock)
    {first second : Environment} (data : first.data = second.data)
    (crossContexts : ∀ name,
      Table.find? name first.crossContexts = Table.find? name second.crossContexts)
    (listed : ∀ reference ∈ formula.references,
      Table.find? reference.name first.named = Table.find? reference.name second.named)
    (predicates : ∀ name ∈ formula.expression.predicateNames [], name ∉ formula.flagged →
      Table.find? name first.named = Table.find? name second.named) :
    evaluator.run formula first clock = evaluator.run formula second clock := by
  have same : Machine.SameOutside (evaluator.machine formula first clock)
      (evaluator.machine formula second clock) := ⟨rfl, rfl, rfl, crossContexts⟩
  have free : Machine.AgreeOn (evaluator.machine formula first clock)
      (evaluator.machine formula second clock) (formula.expression.freeNames []) := by
    intro name read _
    obtain ⟨reference, member, rfl⟩ :=
      List.mem_map.mp ((formula.mem_names_references_iff name).mpr (.inr read))
    exact listed reference member
  -- The data is the same, so only names could make a difference.
  have traced : evaluator.trace formula first clock = evaluator.trace formula second clock := by
    unfold trace
    rw [data]
    refine (same.evaluate formula.expression _ { this := second.data } free
      fun name read unflagged => ?_).eq
    exact predicates name read fun flagged =>
      unflagged ((formula.mem_crossNames_iff name).mpr flagged)
  cases literal : formula.literal? with
  | some value => rw [run_of_literal _ literal, run_of_literal _ literal]
  | none => rw [run_of_trace _ literal, run_of_trace _ literal, traced]

/-- The items that are active. -/
def activeItems : Expression :=
  .filter (.identifier "items") (.identifier "active")

/-- Data with one item, which is not active. -/
def oneItem : Value :=
  .map [("items", .list [.map [("active", .bool false)]])]

/-- The active items, each beside the rates of another context: a named variable whose name is
bound, or that is not read at all, makes no difference. -/
theorem run_reads_references_of_items :
    let formula : Formula := ⟨.forEach "each" activeItems
      (.collection [.identifier "each", .identifier "Rates"]), ["Rates"]⟩
    let first : Environment := ⟨oneItem, [("active", .bool true), ("each", .null)], []⟩
    let second : Environment := ⟨oneItem, [("other", .null), ("active", .bool true)], []⟩
    formula.references = [⟨"Rates", true⟩, ⟨"items", false⟩] ∧
      formula.expression.predicateNames [] = ["active"] ∧
      Evaluator.fixed.run formula first .fixed = Evaluator.fixed.run formula second .fixed := by
  intro formula first second
  have references : formula.references = [⟨"Rates", true⟩, ⟨"items", false⟩] := by decide
  have predicates : formula.expression.predicateNames [] = ["active"] := by decide
  refine ⟨references, predicates,
    run_reads_references .fixed formula .fixed rfl (fun _ => rfl) ?_ ?_⟩
  · rw [references]
    simp [first, second, Table.find?]
  · rw [predicates]
    simp [first, second, Table.find?]

/-- Inside a filter a named variable is read before the element, though no reference lists it: an
item that is not active is kept if there is a named variable that says so. -/
theorem filter_reads_unlisted_variable :
    let formula : Formula := ⟨activeItems, []⟩
    let first : Environment := ⟨oneItem, [], []⟩
    let second : Environment := ⟨oneItem, [("active", .bool true)], []⟩
    formula.references = [⟨"items", false⟩] ∧
      (∀ reference ∈ formula.references,
        Table.find? reference.name first.named = Table.find? reference.name second.named) ∧
      (Evaluator.fixed.run formula first .fixed).result = .ok (.list []) ∧
      (Evaluator.fixed.run formula second .fixed).result
        = .ok (.list [.map [("active", .bool false)]]) := by
  intro formula first second
  have references : formula.references = [⟨"items", false⟩] := by decide
  refine ⟨references, ?_, ?_, ?_⟩
  · rw [references]
    simp [first, second, Table.find?]
  · simp only [run, formula, Formula.literal?, activeItems, Machine.evaluate, Machine.elements,
      maxDepth_fixed, adapters_fixed, AdapterRegistry.elements_standard]
    rfl
  · simp only [run, formula, Formula.literal?, activeItems, Machine.evaluate, Machine.elements,
      maxDepth_fixed, adapters_fixed, AdapterRegistry.elements_standard]
    rfl

end Evaluator

end Rulebook

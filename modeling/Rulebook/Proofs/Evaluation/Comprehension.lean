import Rulebook.Proofs.Evaluation.InTurn
import Rulebook.Proofs.Evaluation.Run
import Rulebook.Proofs.Expression.Reference

/-!
# Comprehensions by their parts

What a filter, a mapping or a quantifier does at the root of a formula is what its parts do as
formulas of their own, with one level less: the predicate of a filter is run with the element as the
data, the other bodies with the element as a named variable. Only how an exceeded limit is told
differs, as it is always the limit of the whole formula.
-/
namespace Rulebook

open Traced (Follows)

/-- The halt as it is told within another limit of levels. -/
def Halt.underLimit (limit : Nat) : Halt → Halt
  | .technical (.recursionLimit _) => .technical (.recursionLimit limit)
  | halt => halt

/-- An ordinary failure does not tell of a limit. -/
theorem Halt.underLimit_ordinary {halt : Halt} (limit : Nat) (ordinary : halt.IsOrdinary) :
    halt.underLimit limit = halt := by
  unfold underLimit
  split
  next => exact ordinary.elim
  next => rfl

namespace Traced

variable {α : Type}

/-- The run as it is told within another limit of levels. -/
def underLimit (limit : Nat) (run : Traced α) : Traced α :=
  ⟨run.outcome.mapError (Halt.underLimit limit), run.diagnostics⟩

/-- Runs agree up to the limit that their halts tell. -/
def upToLimit (limit : Nat) : Agreement :=
  ⟨Eq, fun left right => left = right.underLimit limit, fun _ => False⟩

/-- A run that follows another one up to a limit is that run, told within the limit. -/
theorem eq_underLimit {limit : Nat} {first second : Traced α}
    (follows : Follows (upToLimit limit) Eq first second) : first = second.underLimit limit := by
  cases follows with
  | value notes same =>
    subst same
    rfl
  | halt notes same =>
    subst same
    rfl
  | waived notes other waived => exact waived.elim

/-- A call ends the same within every limit. -/
theorem ofCall_upToLimit (limit : Nat) (name : String)
    (called : Option (Except FunctionError Value)) :
    Follows (upToLimit limit) Eq (.ofCall name called) (.ofCall name called) := by
  cases called with
  | none => exact .halt [] rfl
  | some outcome =>
    cases outcome with
    | ok value => exact .pure rfl
    | error error => cases error <;> exact .halt [] rfl

end Traced

/-- Whether a quantifier holds of answers. -/
def Quantifier.holds : Quantifier → List Bool → Bool
  | .some, answers => answers.any id
  | .every, answers => answers.all id

/-- A search for the settling answer says whether the quantifier holds. -/
theorem Quantifier.holds_eq_contains (quantifier : Quantifier) (answers : List Bool) :
    (answers.contains (quantifier == .some) == (quantifier == .some))
      = quantifier.holds answers := by
  induction answers with
  | nil => cases quantifier <;> rfl
  | cons answer answers ih =>
    -- Either the answer settles the quantifier or it leaves it to the others.
    cases quantifier <;> cases answer <;> simp_all [holds]

/-- The environment with one more named variable. -/
def Environment.naming (name : String) (value : Value) (environment : Environment) : Environment :=
  { environment with named := Table.set name value environment.named }

/-- The further variable is found under its name, before others of that name. -/
theorem Environment.find?_naming (name other : String) (value : Value)
    (environment : Environment) :
    Table.find? other (environment.naming name value).named =
      (Table.find? other [(name, value)]).or (Table.find? other environment.named) := by
  by_cases same : name = other
  · subst same
    simp [naming, Table.find?_set_self, Table.find?]
  · simp [naming, Table.find?_set_other (Ne.symm same), Table.find?, same]

namespace Evaluator

/-- An expression run by itself: as a formula with some names flagged, within a limit of levels. -/
def alone (evaluator : Evaluator) (limit : Nat) (flagged : List String) (expression : Expression)
    (environment : Environment) (clock : Clock) : Traced Value :=
  ({ evaluator with maxDepth := limit }.run ⟨expression, flagged⟩ environment clock).traced

/-- What a filter comes to if its parts run in a given way over their environments: the predicate
runs with each element of the collection as the data. -/
def filterOf (evaluator : Evaluator) (run : Expression → Environment → Traced Value)
    (environment : Environment) (source predicate : Expression) : Traced Value := do
  let collection ← run source environment
  let elements ← .lift .extraction (evaluator.adapters.elements collection)
  let answers ← .inTurn (fun _ => false) (elements.map fun element =>
    Machine.holds "filter" (run predicate { environment with data := element }))
  return .list (Traced.selected elements answers)

/-- What a mapping comes to: its body runs with each element as a named variable. -/
def forEachOf (evaluator : Evaluator) (run : Expression → Environment → Traced Value)
    (environment : Environment) (name : String) (source body : Expression) : Traced Value := do
  let collection ← run source environment
  let elements ← .lift .extraction (evaluator.adapters.elements collection)
  let values ← .inTurn (fun _ => false) (elements.map fun element =>
    run body (environment.naming name element))
  return .list values

/-- What a quantifier comes to: its predicate runs with each element as a named variable, until an
answer settles it. -/
def quantifiedOf (evaluator : Evaluator) (run : Expression → Environment → Traced Value)
    (environment : Environment) (quantifier : Quantifier) (name : String)
    (source predicate : Expression) : Traced Value := do
  let collection ← run source environment
  let elements ← .lift .extraction (evaluator.adapters.elements collection)
  let answers ← .inTurn (· == (quantifier == .some)) (elements.map fun element =>
    Machine.holds "satisfies" (run predicate (environment.naming name element)))
  return .bool (quantifier.holds answers)

/-- A part of a formula run by itself within a limit of levels, as it is told within one level
more. -/
def aloneWithin (evaluator : Evaluator) (limit : Nat) (flagged : List String) (clock : Clock)
    (part : Expression) (environment : Environment) : Traced Value :=
  (evaluator.alone limit flagged part environment clock).underLimit (limit + 1)

section

variable (evaluator : Evaluator) {limit : Nat} (flagged : List String) (environment : Environment)
  (clock : Clock)

/-- A part of a formula runs as it does alone, in an environment in which the elements that are
bound around it are named variables. -/
theorem evaluate_part (positive : 1 ≤ limit) (whole part : Expression)
    (environment' : Environment) (further : List (String × Value))
    (named : ∀ name, Table.find? name environment'.named =
      (Table.find? name further).or (Table.find? name environment.named))
    (crossContexts : environment.crossContexts = environment'.crossContexts)
    (apart : ∀ name ∈ flagged, Table.find? name further = none) :
    ({ evaluator with maxDepth := limit + 1 }.machine ⟨whole, flagged⟩ environment clock).evaluate
        part ⟨environment'.data, further⟩ limit
      = evaluator.aloneWithin limit flagged clock part environment' := by
  have ordinary (halt : Halt) (kind : halt.IsOrdinary) : halt = halt.underLimit (limit + 1) :=
    (halt.underLimit_ordinary _ kind).symm
  have agree : Machine.Agree (Traced.upToLimit (limit + 1))
      ({ evaluator with maxDepth := limit + 1 }.machine ⟨whole, flagged⟩ environment clock)
      ({ evaluator with maxDepth := limit }.machine ⟨part, flagged⟩ environment' clock) :=
    .of_calls ordinary rfl rfl rfl (.inr rfl) fun name _ => Traced.ofCall_upToLimit _ name _
  have crossNames (name : String) : name ∈ Formula.crossNames ⟨whole, flagged⟩ ↔
      name ∈ Formula.crossNames ⟨part, flagged⟩ := by
    rw [Formula.mem_crossNames_iff, Formula.mem_crossNames_iff]
  have corresponding : Machine.ScopesAgree (Traced.upToLimit (limit + 1))
      ({ evaluator with maxDepth := limit + 1 }.machine ⟨whole, flagged⟩ environment clock)
      ({ evaluator with maxDepth := limit }.machine ⟨part, flagged⟩ environment' clock) _ :=
    Machine.scopesAgree_boundBehind ordinary named crossContexts crossNames
      (fun name listed => apart name ((Formula.mem_crossNames_iff _ name).mp listed)) rfl
  rw [aloneWithin, alone, traced_run _ positive]
  exact Traced.eq_underLimit (corresponding.evaluate agree part limit ⟨rfl, rfl⟩)

/-- A part with another object in scope runs as it does alone over that object. -/
theorem evaluate_part_over (positive : 1 ≤ limit) (whole part : Expression) (data : Value) :
    ({ evaluator with maxDepth := limit + 1 }.machine ⟨whole, flagged⟩ environment clock).evaluate
        part { this := data } limit
      = evaluator.aloneWithin limit flagged clock part { environment with data := data } :=
  evaluate_part evaluator flagged environment clock positive whole part
    { environment with data := data } [] (fun _ => rfl) rfl fun _ _ => rfl

/-- A part with a bound element runs as it does alone with that named variable. -/
theorem evaluate_part_naming (positive : 1 ≤ limit) (whole part : Expression) {name : String}
    (unflagged : name ∉ flagged) (element : Value) :
    ({ evaluator with maxDepth := limit + 1 }.machine ⟨whole, flagged⟩ environment clock).evaluate
        part { this := environment.data, bound := [(name, element)] } limit
      = evaluator.aloneWithin limit flagged clock part (environment.naming name element) := by
  refine evaluate_part evaluator flagged environment clock positive whole part
    (environment.naming name element) [(name, element)]
    (fun other => environment.find?_naming name other element) rfl fun other flag => ?_
  have distinct : name ≠ other := fun same => unflagged (same ▸ flag)
  simp only [Table.find?, if_neg distinct]

/-- A filter is made of its parts as they run alone. -/
theorem filter_by_parts (positive : 1 ≤ limit) (source predicate : Expression) :
    evaluator.alone (limit + 1) flagged (.filter source predicate) environment clock
      = evaluator.filterOf (evaluator.aloneWithin limit flagged clock) environment source
          predicate := by
  rw [alone, traced_run _ (Nat.le_add_left 1 limit), filterOf]
  -- The parts run alone as they do here; what is left is how their runs are put together.
  simp only [← evaluate_part_over evaluator flagged environment clock positive
    (.filter source predicate)]
  refine bind_congr fun collection => bind_congr fun elements => ?_
  rw [Traced.filterAll_eq_inTurn, bind_assoc]
  simp only [pure_bind]

/-- So is a mapping. -/
theorem forEach_by_parts (positive : 1 ≤ limit) {name : String} (unflagged : name ∉ flagged)
    (source body : Expression) :
    evaluator.alone (limit + 1) flagged (.forEach name source body) environment clock
      = evaluator.forEachOf (evaluator.aloneWithin limit flagged clock) environment name source
          body := by
  rw [alone, traced_run _ (Nat.le_add_left 1 limit), forEachOf]
  simp only [← evaluate_part_over evaluator flagged environment clock positive
      (.forEach name source body) source environment.data,
    ← evaluate_part_naming evaluator flagged environment clock positive
      (.forEach name source body) body unflagged]
  refine bind_congr fun collection => bind_congr fun elements => ?_
  rw [Traced.mapAll_eq_inTurn]

/-- So is a quantifier, which does not run the predicate behind the settling answer. -/
theorem quantified_by_parts (positive : 1 ≤ limit) (quantifier : Quantifier) {name : String}
    (unflagged : name ∉ flagged) (source predicate : Expression) :
    evaluator.alone (limit + 1) flagged (.quantified quantifier name source predicate) environment
        clock
      = evaluator.quantifiedOf (evaluator.aloneWithin limit flagged clock) environment quantifier
          name source predicate := by
  rw [alone, traced_run _ (Nat.le_add_left 1 limit), quantifiedOf]
  simp only [← evaluate_part_over evaluator flagged environment clock positive
      (.quantified quantifier name source predicate) source environment.data,
    ← evaluate_part_naming evaluator flagged environment clock positive
      (.quantified quantifier name source predicate) predicate unflagged]
  refine bind_congr fun collection => bind_congr fun elements => ?_
  simp only [Traced.search_eq_inTurn, bind_assoc, pure_bind, Quantifier.holds_eq_contains]

/-- A comprehension at the root of a formula, within one level more than a limit, is made of its
parts as they run alone within that limit: the collection, and for each of its elements in turn the
predicate or body, with the element as the data for a filter and as a named variable otherwise. Its
diagnostics are theirs, and the first halt among them ends it; a limit that a part exceeds is told
as the limit of the whole. With the standard adapters the elements are those of the collection
inside one optional layer, without nulls. -/
theorem comprehension_by_parts (positive : 1 ≤ limit) (source : Expression) :
    (∀ predicate, evaluator.alone (limit + 1) flagged (.filter source predicate) environment clock
      = evaluator.filterOf (evaluator.aloneWithin limit flagged clock) environment source
          predicate) ∧
    (∀ name body, name ∉ flagged →
      evaluator.alone (limit + 1) flagged (.forEach name source body) environment clock
        = evaluator.forEachOf (evaluator.aloneWithin limit flagged clock) environment name source
            body) ∧
    (∀ quantifier name predicate, name ∉ flagged →
      evaluator.alone (limit + 1) flagged (.quantified quantifier name source predicate)
          environment clock
        = evaluator.quantifiedOf (evaluator.aloneWithin limit flagged clock) environment quantifier
            name source predicate) ∧
    ∀ collection, AdapterRegistry.standard.elements collection = .ok collection.elements :=
  ⟨filter_by_parts evaluator flagged environment clock positive source,
    fun _ body unflagged =>
      forEach_by_parts evaluator flagged environment clock positive unflagged source body,
    fun quantifier _ predicate unflagged =>
      quantified_by_parts evaluator flagged environment clock positive quantifier unflagged source
        predicate,
    AdapterRegistry.elements_standard⟩

end

/-- A body that reads an element and a reference that is not resolved, over a one and a null: the
null is dropped, and the reference is noted once. -/
theorem comprehension_by_parts_of_rates :
    1 ≤ 2 ∧ "each" ∉ ["Rates"] ∧
      Evaluator.fixed.alone 3 ["Rates"]
          (.forEach "each" (.literal (.list [.number .one, .null]))
            (.collection [.identifier "each", .identifier "Rates"])) ⟨.null, [], []⟩ .fixed
        = ⟨.ok (.list [.list [.number .one, .null]]), [.unresolvedReference "Rates"]⟩ := by
  refine ⟨by decide, by decide, ?_⟩
  rw [(comprehension_by_parts .fixed ["Rates"] ⟨.null, [], []⟩ .fixed (by decide : 1 ≤ 2) _).2.1
    "each" _ (by decide)]
  simp only [forEachOf, adapters_fixed, AdapterRegistry.elements_standard]
  rfl

/-- A filter tells an exceeded limit as its own, while its predicate alone tells the smaller limit
that it runs within. -/
theorem filter_tells_own_limit :
    let source : Expression := .literal (.list [.bool true])
    let predicate : Expression := .unary .not .this
    Evaluator.fixed.alone 2 [] (.filter source predicate) ⟨.null, [], []⟩ .fixed
      ≠ Evaluator.fixed.filterOf
          (fun part environment => Evaluator.fixed.alone 1 [] part environment .fixed)
          ⟨.null, [], []⟩ source predicate := by
  intro source predicate
  have whole : Evaluator.fixed.alone 2 [] (.filter source predicate) ⟨.null, [], []⟩ .fixed
      = ⟨.error (.technical (.recursionLimit 2)), []⟩ := by
    rw [filter_by_parts .fixed [] _ .fixed (Nat.le_refl 1)]
    simp only [filterOf, adapters_fixed, AdapterRegistry.elements_standard]
    rfl
  rw [whole]
  simp only [filterOf, adapters_fixed, AdapterRegistry.elements_standard]
  intro same
  have told : (Except.error (.technical (.recursionLimit 2)) : Except Halt Value)
      = .error (.technical (.recursionLimit 1)) := congrArg Traced.outcome same
  cases told

end Evaluator

end Rulebook

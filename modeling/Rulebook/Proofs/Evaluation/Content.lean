import Rulebook.Proofs.Evaluation.Run
import Rulebook.Proofs.Expression.Content
import Rulebook.Proofs.Expression.Reference
import Rulebook.Proofs.Function.Content

/-!
# Evaluations of one content

Evaluation never observes trailing zeros. Expressions of one content, over data, variables and
other contexts of one content, evaluate to values of one content or fail alike, with the same
message and the same diagnostics, if only the built-in functions are called and values are read in
the standard way.
-/
namespace Rulebook

open List (Forall₂)
open Traced (Follows)
open Value (SameContent SameEntries)

/-- Runs end with values of one content or with the same halt. -/
def Agreement.content : Agreement :=
  ⟨SameContent, Eq, fun _ => False⟩

namespace Expression

mutual

theorem SameContent.text_eq {left right : Expression} :
    left.SameContent right → left.text = right.text
  | .this | .identifier _ => rfl
  | .literal value => value.display_eq
  | .property base _ => by rw [text, text, base.text_eq]
  | .index base position => by rw [text, text, base.text_eq, position.text_eq]
  | .unary _ operand => by rw [text, text, operand.text_eq]
  | .binary _ left right => by rw [text, text, left.text_eq, right.text_eq]
  | .call _ arguments => by rw [text, text, arguments.texts_eq]
  | .collection items => by rw [text, text, items.texts_eq]
  | .filter source predicate => by rw [text, text, source.text_eq, predicate.text_eq]
  | .forEach _ source body => by rw [text, text, source.text_eq, body.text_eq]
  | .quantified _ _ source predicate => by rw [text, text, source.text_eq, predicate.text_eq]
  | .ifThen condition consequence => by rw [text, text, condition.text_eq, consequence.text_eq]
  | .ifThenElse condition consequence alternative => by
    rw [text, text, condition.text_eq, consequence.text_eq, alternative.text_eq]
  | .instanceOf operand _ => by rw [text, text, operand.text_eq]
  | .cast _ operand => by rw [text, text, operand.text_eq]

theorem SameItems.texts_eq {left right : List Expression} :
    SameItems left right → texts left = texts right
  | .nil => rfl
  | .cons item items => by rw [texts, texts, item.text_eq, items.texts_eq]

end

end Expression

/-- Environments whose data, variables and other contexts have the same content. -/
structure Environment.SameContent (left right : Environment) : Prop where
  data : left.data.SameContent right.data
  named : SameEntries left.named right.named
  crossContexts : SameEntries left.crossContexts right.crossContexts

/-- Scopes with an object and bound elements of the same content. -/
structure Scope.SameContent (left right : Scope) : Prop where
  this : left.this.SameContent right.this
  bound : SameEntries left.bound right.bound

namespace Machine

variable {first second : Machine}

/-- Standard machines that differ in the content of nothing. -/
structure SameContent (first second : Machine) : Prop where
  functions : first.evaluator.functions = .builtins ∧ second.evaluator.functions = .builtins
  access : first.evaluator.access = .standard ∧ second.evaluator.access = .standard
  adapters : first.evaluator.adapters = .standard ∧ second.evaluator.adapters = .standard
  powers : first.evaluator.powers = second.evaluator.powers
  maxDepth : first.evaluator.maxDepth = second.evaluator.maxDepth
  environment : first.environment.SameContent second.environment
  clock : first.clock = second.clock
  crossNames : ∀ name, name ∈ first.crossNames ↔ name ∈ second.crossNames

namespace SameContent

theorem call (same : first.SameContent second) (name : String) {lefts rights : List Value}
    (arguments : Forall₂ Value.SameContent lefts rights) :
    Follows .content Value.SameContent (first.callFunction name lefts)
      (second.callFunction name rights) := by
  rw [callFunction_eq, callFunction_eq, same.functions.1, same.functions.2, same.clock]
  unfold FunctionRegistry.call?
  cases found : FunctionRegistry.builtins.find? name with
  | none => exact .halt [] rfl
  | some body =>
    -- Which function it is does not matter: every built-in one respects the content.
    have respects : Alike (fun _ => True) Value.SameContent (body lefts second.clock)
        (body rights second.clock) :=
      Builtin.all_respect (name, body) (Table.mem_of_find? found) second.clock arguments
    simp only [Option.map_some]
    generalize body lefts second.clock = result at respects ⊢
    generalize body rights second.clock = result' at respects ⊢
    cases respects with
    | ok value => exact .pure value
    | @error error _ => cases error <;> exact .halt [] rfl

theorem agree (same : first.SameContent second) : Agree .content first second where
  lawful := Agreement.lawful_content fun _ _ => rfl
  powers := same.powers
  limit := .inr (by rw [same.maxDepth]; rfl)
  property content name := by
    rw [same.access.1, same.access.2]
    exact Value.SameContent.getProperty name content
  elements content := by
    rw [same.adapters.1, same.adapters.2, AdapterRegistry.elements_standard,
      AdapterRegistry.elements_standard]
    exact .ok (Value.SameContent.elements content)
  item base position :=
    itemOf_content (fun _ _ => rfl) same.adapters.1 same.adapters.2 same.access.1 same.access.2 base
      position
  call name _ _ arguments := same.call name arguments

theorem readName (same : first.SameContent second) {left right : Scope}
    (scopes : left.SameContent right) (name : String) :
    Follows .content Value.SameContent (first.readName left name) (second.readName right name) := by
  have bound := scopes.bound.find? name
  have named := same.environment.named.find? name
  have crossContexts := same.environment.crossContexts.find? name
  -- Bound elements come first, then other contexts or variables, and the object last.
  unfold Machine.readName
  rw [same.access.1, same.access.2]
  generalize Table.find? name left.bound = found at bound ⊢
  generalize Table.find? name right.bound = found' at bound ⊢
  cases bound with
  | some value => exact .pure value
  | none =>
    by_cases flagged : name ∈ first.crossNames
    · simp only [if_pos flagged, if_pos ((same.crossNames name).mp flagged)]
      generalize Table.find? name first.environment.crossContexts = found at crossContexts ⊢
      generalize Table.find? name second.environment.crossContexts = found' at crossContexts ⊢
      cases crossContexts with
      | some value => exact .pure value
      | none => exact .value _ .null
    · simp only [if_neg flagged, if_neg (flagged ∘ (same.crossNames name).mpr)]
      generalize Table.find? name first.environment.named = found at named ⊢
      generalize Table.find? name second.environment.named = found' at named ⊢
      cases named with
      | some value => exact .pure value
      | none => exact .lift (fun _ _ => rfl) (Value.SameContent.getProperty name scopes.this)

theorem scopesAgree (same : first.SameContent second) :
    ScopesAgree .content first second Scope.SameContent where
  literal value := .refl value
  this scopes := scopes.this
  name scopes name := same.readName scopes name
  enter scopes element := ⟨element, scopes.bound⟩
  bind scopes element name := ⟨scopes.this, .cons name element scopes.bound⟩

end SameContent

end Machine

namespace Expression

open Machine (Agree ScopesAgree)

variable {first second : Machine} {scopes : Scope → Scope → Prop}

mutual

/-- Expressions of one content run alike on machines that agree on content. -/
theorem SameContent.evaluate (corresponding : ScopesAgree .content first second scopes)
    (agree : Agree .content first second) {expression expression' : Expression}
    (same : expression.SameContent expression') :
    ∀ (levels : Nat) {left right : Scope}, scopes left right →
      Follows .content Value.SameContent (first.evaluate expression left levels)
        (second.evaluate expression' right levels)
  | 0, _, _, _ => agree.evaluate_zero expression expression'
  | level + 1, left, right, related => by
    cases same with
    | literal value => exact .pure value
    | this => exact .pure (corresponding.this related)
    | identifier name => exact corresponding.name related name
    | property base name =>
      exact agree.evaluate_property name (base.evaluate corresponding agree level related)
    | index base position =>
      exact agree.evaluate_index (base.evaluate corresponding agree level related)
        (position.evaluate corresponding agree level related)
    | unary operator operand =>
      exact agree.evaluate_unary operator (operand.evaluate corresponding agree level related)
    | binary operator operand other =>
      exact agree.evaluate_binary operator (operand.evaluate corresponding agree level related)
        (other.evaluate corresponding agree level related)
    | call name arguments =>
      exact agree.evaluate_call name (arguments.evaluateAll corresponding agree level related)
    | collection items =>
      exact agree.evaluate_collection (items.evaluateAll corresponding agree level related)
    | filter source predicate =>
      exact agree.evaluate_filter (source.evaluate corresponding agree level related)
        fun _ _ entered =>
          predicate.evaluate corresponding agree level (corresponding.enter related entered)
    | forEach name source body =>
      exact agree.evaluate_forEach name name (source.evaluate corresponding agree level related)
        fun _ _ bound =>
          body.evaluate corresponding agree level (corresponding.bind related bound name)
    | quantified quantifier name source predicate =>
      exact agree.evaluate_quantified quantifier name name
        (source.evaluate corresponding agree level related) fun _ _ bound =>
          predicate.evaluate corresponding agree level (corresponding.bind related bound name)
    | ifThen condition consequence =>
      exact agree.evaluate_ifThen (condition.evaluate corresponding agree level related)
        (consequence.evaluate corresponding agree level related)
    | ifThenElse condition consequence alternative =>
      exact agree.evaluate_ifThenElse (condition.evaluate corresponding agree level related)
        (consequence.evaluate corresponding agree level related)
        (alternative.evaluate corresponding agree level related)
    | instanceOf operand typeName =>
      exact agree.evaluate_instanceOf typeName (operand.evaluate corresponding agree level related)
    | cast typeName operand =>
      exact agree.evaluate_cast typeName (operand.evaluate corresponding agree level related)

theorem SameItems.evaluateAll (corresponding : ScopesAgree .content first second scopes)
    (agree : Agree .content first second) {expressions expressions' : List Expression}
    (same : SameItems expressions expressions') (levels : Nat) {left right : Scope}
    (related : scopes left right) :
    Follows .content (Forall₂ Value.SameContent) (first.evaluateAll expressions left levels)
      (second.evaluateAll expressions' right levels) := by
  cases same with
  | nil => exact .pure .nil
  | cons item items =>
    exact Agree.evaluateAll_cons (item.evaluate corresponding agree levels related)
      (items.evaluateAll corresponding agree levels related)

end

end Expression

namespace Evaluator

/-- Expressions of one content run alike with the built-in functions and the standard access and
adapters. -/
theorem trace_content (maxDepth : Nat) (powers : PowerLibrary) (flagged : List String)
    (clock : Clock) {left right : Expression} {environment environment' : Environment}
    (expressions : left.SameContent right) (environments : environment.SameContent environment') :
    Follows .content SameContent
      (({ maxDepth, powers } : Evaluator).trace ⟨left, flagged⟩ environment clock)
      (({ maxDepth, powers } : Evaluator).trace ⟨right, flagged⟩ environment' clock) := by
  have same : Machine.SameContent
      (({ maxDepth, powers } : Evaluator).machine ⟨left, flagged⟩ environment clock)
      (({ maxDepth, powers } : Evaluator).machine ⟨right, flagged⟩ environment' clock) :=
    { functions := ⟨rfl, rfl⟩
      access := ⟨rfl, rfl⟩
      adapters := ⟨rfl, rfl⟩
      powers := rfl
      maxDepth := rfl
      environment := environments
      clock := rfl
      crossNames := fun name => by
        show name ∈ Formula.crossNames ⟨left, flagged⟩ ↔ name ∈ Formula.crossNames ⟨right, flagged⟩
        rw [Formula.mem_crossNames_iff, Formula.mem_crossNames_iff] }
  exact expressions.evaluate same.scopesAgree same.agree maxDepth ⟨environments.data, .nil⟩

/-- Trailing zeros are never observed. If two expressions differ in the numbers of their literals by
trailing zeros only, and so do two environments in all their numbers at any depth, then their
evaluations note the same diagnostics and either fail with the same error, or succeed with values
that differ by trailing zeros only. -/
theorem run_ignores_trailing_zeros (maxDepth : Nat) (powers : PowerLibrary) (flagged : List String)
    (clock : Clock) {left right : Expression} {environment environment' : Environment}
    (expressions : left.SameContent right) (environments : environment.SameContent environment') :
    (({ maxDepth, powers } : Evaluator).run ⟨left, flagged⟩ environment clock).diagnostics
        = (({ maxDepth, powers } : Evaluator).run ⟨right, flagged⟩ environment' clock).diagnostics ∧
      Alike (fun _ => True) SameContent
        (({ maxDepth, powers } : Evaluator).run ⟨left, flagged⟩ environment clock).result
        (({ maxDepth, powers } : Evaluator).run ⟨right, flagged⟩ environment' clock).result := by
  have follows := trace_content maxDepth powers flagged clock expressions environments
  have text : Formula.text ⟨left, flagged⟩ = Formula.text ⟨right, flagged⟩ := expressions.text_eq
  have complex (complex : Formula.literal? ⟨left, flagged⟩ = none) :
      Formula.literal? ⟨right, flagged⟩ = none := by
    cases expressions with
    | literal _ => cases complex
    | _ => rfl
  cases literal : Formula.literal? ⟨left, flagged⟩ with
  | none =>
    rw [run_of_trace _ literal, run_of_trace _ (complex literal)]
    generalize Evaluator.trace _ _ environment _ = run at follows ⊢
    generalize Evaluator.trace _ _ environment' _ = run' at follows ⊢
    cases follows with
    | value notes same => exact ⟨rfl, .ok same⟩
    | halt notes same =>
      cases same
      refine ⟨rfl, ?_⟩
      simp only [blame, text]
      exact .error trivial
    | waived notes other waived => exact waived.elim
  | some value =>
    cases expressions with
    | literal value => exact ⟨rfl, .ok value⟩
    | _ => cases literal

/-- A premium of 10.00 over 3.0 and one of 10 over 3. -/
theorem run_ignores_trailing_zeros_of_premium :
    let long : Decimal := { mantissa := 1000, scale := 2 }
    let short : Decimal := { mantissa := 10, scale := 0 }
    let left : Expression := .binary .divide (.identifier "premium")
      (.literal (.number { mantissa := 30, scale := 1 }))
    let right : Expression := .binary .divide (.identifier "premium")
      (.literal (.number { mantissa := 3, scale := 0 }))
    let environment : Environment := ⟨.map [("premium", .number long)], [], []⟩
    let environment' : Environment := ⟨.map [("premium", .number short)], [], []⟩
    long ≠ short ∧ left.SameContent right ∧ environment.SameContent environment' ∧
      (Evaluator.fixed.run ⟨left, []⟩ environment .fixed).diagnostics
          = (Evaluator.fixed.run ⟨right, []⟩ environment' .fixed).diagnostics ∧
        Alike (fun _ => True) SameContent (Evaluator.fixed.run ⟨left, []⟩ environment .fixed).result
          (Evaluator.fixed.run ⟨right, []⟩ environment' .fixed).result := by
  intro long short left right environment environment'
  have premiums : long.SameValue short := (Decimal.toRat_eq_iff _ _).mpr (by decide)
  have expressions : left.SameContent right :=
    .binary .divide (.identifier "premium")
      (.literal (.number ((Decimal.toRat_eq_iff _ _).mpr (by decide))))
  have environments : environment.SameContent environment' :=
    ⟨.map (.cons "premium" (.number premiums) .nil), .nil, .nil⟩
  exact ⟨by decide, expressions, environments,
    run_ignores_trailing_zeros 256 .empty [] .fixed expressions environments⟩

end Evaluator

end Rulebook

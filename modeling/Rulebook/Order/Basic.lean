import Rulebook.Dependency.Cycle
import Rulebook.Rule.Checksum

/-!
# Rule orders

The order of one version of a rule set: all rules with producers before consumers, and for every
entry point its members in the same order.
-/
namespace Rulebook

structure RuleOrder where
  checksum : Checksum
  rules : List Rule
  entryPoints : Table (List Rule)
  edgeCount : Nat

namespace RuleSet

/-- The graph of the rules over the contexts of the set. -/
def graph (set : RuleSet) : RuleGraph :=
  .ofRules set.rules set.contexts

end RuleSet

namespace RuleOrder

/-- Orders the rules of a set. -/
def ofRuleSet (set : RuleSet) : Except CycleError RuleOrder := do
  let graph := set.graph
  let rules ← graph.order
  -- A member that is named twice still stands once, where the order puts it.
  let entryPoints := set.entryPoints.map fun (name, members) =>
    (name, rules.filter (·.name ∈ members))
  return ⟨set.checksum, rules, entryPoints, graph.edgeCount⟩

/-- The names of all rules in order. -/
def names (order : RuleOrder) : List String :=
  order.rules.map (·.name)

/-- The members of an entry point in order. -/
def entryPoint? (order : RuleOrder) (name : String) : Option (List Rule) :=
  Table.find? name order.entryPoints

/-- Where in the order the rule of a name stands. -/
def position? (order : RuleOrder) (name : String) : Option Nat :=
  order.rules.findIdx? (·.name = name)

end RuleOrder

end Rulebook

import Rulebook.Dependency.Graph
import Rulebook.Search.DepthFirst

/-!
# Dependency cycles

Rules that can be reached from each other form a cycle together; each rule belongs to one such
group, and only groups of at least two rules are cycles. If there is any, no order exists, and all
of them are reported: members in their given order, cycles by their first member. They are looked
for among the rules that could not be taken, which hold all of them.
-/
namespace Rulebook

/-- The rules of one cycle. -/
structure RuleCycle where
  members : List Rule

namespace RuleCycle

def names (cycle : RuleCycle) : List String :=
  cycle.members.map (·.name)

def memberText (rule : Rule) : String :=
  "  rule '" ++ rule.name ++ "' on " ++ rule.target.text ++ " depends on ["
    ++ ", ".intercalate rule.readTexts ++ "]"

/-- One line for each member. -/
def text (cycle : RuleCycle) : String :=
  "\n".intercalate (cycle.members.map memberText)

end RuleCycle

/-- The rules cannot be ordered because of these cycles. -/
structure CycleError where
  cycles : List RuleCycle

/-- The cycles under numbered headings. -/
def CycleError.message (error : CycleError) : String :=
  "cyclic dependency detected:\n" ++ "\n".intercalate (error.cycles.mapIdx fun position cycle =>
    "cycle " ++ toString (position + 1) ++ ":\n" ++ cycle.text)

namespace RuleGraph

/-- The rules among some that read the rule at a position. -/
def consumersWithin (graph : RuleGraph) (left : List Nat) (position : Nat) : List Nat :=
  (graph.consumersOf position).filter (· ∈ left)

/-- The groups of at least two positions that are reachable from each other, among those that could
not be taken. -/
def tiedGroups (graph : RuleGraph) (left : List Nat) : List (List Nat) :=
  let components := Search.components (graph.consumersWithin left) graph.rules.length left
  ((components.filter (2 ≤ ·.length)).map (·.mergeSort)).mergeSort fun earlier later =>
    earlier.headD 0 ≤ later.headD 0

def cycles (graph : RuleGraph) (left : List Nat) : List RuleCycle :=
  (graph.tiedGroups left).map fun group => ⟨graph.rulesAt group⟩

/-- The positions with every rule behind the rules it reads. -/
def orderedPositions (graph : RuleGraph) : Except CycleError (List Nat) :=
  let taken := Dependency.schedule graph.producersOf graph.consumersOf graph.rules.length
  if taken.length = graph.rules.length then .ok taken
  -- What was not taken stands in a cycle or waits for one.
  else .error ⟨graph.cycles (graph.positions.filter (· ∉ taken))⟩

/-- The rules, each behind the rules it reads; rules that are independent of each other keep their
given order. -/
def order (graph : RuleGraph) : Except CycleError (List Rule) :=
  graph.orderedPositions.map graph.rulesAt

end RuleGraph

end Rulebook

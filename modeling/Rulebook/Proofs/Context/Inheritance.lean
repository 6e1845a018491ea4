import Rulebook.Context.Ancestry
import Rulebook.Proofs.Search.Reach

/-!
# Inheritance as a relation

The ancestry of a name lists the reflexive and transitive closure of declared inheritance, also
where inheritance is cyclic or leads to names that nothing defines.
-/
namespace Rulebook.ContextTable

/-- A name inherits directly from the names that its definition declares. -/
def Inherits (contexts : ContextTable) (name ancestor : String) : Prop :=
  ∃ definition, Table.find? name contexts = some definition ∧ ancestor ∈ definition.ancestors

/-- A context answers to its own name and to all names it inherits from, directly or through
others. -/
def AnswersTo (contexts : ContextTable) : String → String → Prop :=
  Relation.ReflTransGen contexts.Inherits

/-- The names listed for a name are those it inherits from directly. -/
theorem mem_ancestorsOf (contexts : ContextTable) (name ancestor : String) :
    ancestor ∈ contexts.ancestorsOf name ↔ contexts.Inherits name ancestor := by
  unfold ancestorsOf Inherits
  split
  next definition found => simp [found]
  next absent => simp [absent]

/-- The ancestry of a name lists exactly what it answers to. -/
theorem mem_ancestry (contexts : ContextTable) (name ancestor : String) :
    ancestor ∈ contexts.ancestry name ↔ contexts.AnswersTo name ancestor := by
  have same :
      (fun node successor => successor ∈ contexts.ancestorsOf node) = contexts.Inherits := by
    funext node successor
    exact propext (mem_ancestorsOf contexts node successor)
  rw [ancestry, Search.mem_reach _ _ contexts.ancestorsOf_subset, Search.Reachable, same, AnswersTo]

end Rulebook.ContextTable

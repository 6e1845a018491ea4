import Rulebook.Context.Basic
import Rulebook.Search.BreadthFirst

/-!
# Ancestry

The ancestry of a context is its own name and then the names it inherits from, directly or through
others, nearest first. A name without a definition has no ancestors, and inheritance may be
cyclic. A cache remembers the ancestries it was asked for.
-/
namespace Rulebook

namespace ContextTable

/-- The declared ancestors of a name. -/
def ancestorsOf (contexts : ContextTable) (name : String) : List String :=
  match Table.find? name contexts with
  | some definition => definition.ancestors
  | none => []

/-- Every name that is a declared ancestor of some context. -/
def inheritedNames (contexts : ContextTable) : List String :=
  contexts.flatMap fun (_, definition) => definition.ancestors

theorem ancestorsOf_subset (contexts : ContextTable) (name : String) :
    ancestorsOf contexts name ⊆ inheritedNames contexts := by
  induction contexts with
  | nil => simp [ancestorsOf, Table.find?]
  | cons entry rest ih =>
    intro ancestor member
    simp only [inheritedNames, List.flatMap_cons, List.mem_append]
    simp only [ancestorsOf, Table.find?] at member
    split at member
    · next found =>
      split at found
      · exact Or.inl (Option.some.inj found ▸ member)
      · exact Or.inr (ih (by simpa [ancestorsOf, found] using member))
    · simp at member

/-- The name, and everything it inherits from, nearest first. -/
def ancestry (contexts : ContextTable) (name : String) : List String :=
  Search.reach contexts.ancestorsOf contexts.inheritedNames name

end ContextTable

/-- Ancestries over one repository, kept once they were asked for. -/
structure AncestryCache where
  contexts : ContextTable
  closures : Table (List String) := []

namespace AncestryCache

/-- The ancestry of a name, and the cache that remembers it. -/
def ancestry (cache : AncestryCache) (name : String) : List String × AncestryCache :=
  match Table.find? name cache.closures with
  | some closure => (closure, cache)
  | none =>
    let closure := cache.contexts.ancestry name
    (closure, { cache with closures := Table.set name closure cache.closures })

/-- The number of distinct names asked for. -/
def size (cache : AncestryCache) : Nat :=
  cache.closures.length

def isEmpty (cache : AncestryCache) : Bool :=
  cache.closures.isEmpty

/-- A short description for logs. -/
def summary (cache : AncestryCache) : String :=
  "InheritanceCache \x7b cached: " ++ toString cache.size ++ ", .. \x7d"

end AncestryCache

end Rulebook

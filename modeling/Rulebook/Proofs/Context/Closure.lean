import Mathlib.Data.List.Dedup
import Rulebook.Proofs.Context.Inheritance
import Rulebook.Proofs.Search.Distance

/-!
# Closures of inheritance

Asking for the ancestry of a name gives the closure of inheritance from this name, nearest names
first, whatever a repository declares. A cache answers as if it had not been asked before: what it
keeps is faithful to its repository, and it keeps one closure for each name that was asked for.
-/
namespace Rulebook

/-- The name, and then all names that it inherits from, directly or through others, each once and
the nearest first. -/
structure ContextTable.IsClosure (contexts : ContextTable) (name : String) (closure : List String) :
    Prop where
  first : closure.head? = some name
  distinct : closure.Nodup
  complete : ∀ ancestor, ancestor ∈ closure ↔ contexts.AnswersTo name ancestor
  sorted : closure.Pairwise fun near far =>
    Search.distance contexts.ancestorsOf name near ≤ Search.distance contexts.ancestorsOf name far

/-- The ancestry of a name is its closure. -/
theorem ContextTable.ancestry_isClosure (contexts : ContextTable) (name : String) :
    contexts.IsClosure name (contexts.ancestry name) where
  first := by
    obtain ⟨others, split⟩ :=
      Search.exists_reach_eq_cons contexts.ancestorsOf contexts.inheritedNames name
    rw [ancestry, split]
    rfl
  distinct := Search.nodup_reach _ _ _
  complete := contexts.mem_ancestry name
  sorted := Search.reach_sorted _ _ _

namespace AncestryCache

/-- A cache over a repository that was not asked for anything. -/
def ofContexts (contexts : ContextTable) : AncestryCache :=
  { contexts }

/-- The ancestries of names that are asked for one after another, and the cache after that. -/
def askAll (cache : AncestryCache) : List String → List (List String) × AncestryCache
  | [] => ([], cache)
  | name :: names =>
    let (closure, next) := cache.ancestry name
    let (closures, last) := next.askAll names
    (closure :: closures, last)

/-- A cache keeps the ancestry of every name that was asked for, once, and nothing else. -/
structure Remembers (cache : AncestryCache) (contexts : ContextTable) (asked : List String) :
    Prop where
  contexts_eq : cache.contexts = contexts
  faithful : ∀ name closure, Table.find? name cache.closures = some closure →
    closure = contexts.ancestry name
  distinct : (Table.names cache.closures).Nodup
  mem_names : ∀ name, name ∈ Table.names cache.closures ↔ name ∈ asked

namespace Remembers

variable {cache : AncestryCache} {contexts : ContextTable} {asked : List String}

theorem start (contexts : ContextTable) : (ofContexts contexts).Remembers contexts [] where
  contexts_eq := rfl
  faithful := nofun
  distinct := List.nodup_nil
  mem_names _ := Iff.rfl

/-- A cache holds as many closures as different names were asked for. -/
theorem size_eq (remembers : cache.Remembers contexts asked) : cache.size = asked.dedup.length := by
  have same : (Table.names cache.closures).Perm asked.dedup := by
    rw [List.perm_ext_iff_of_nodup remembers.distinct asked.nodup_dedup]
    intro name
    rw [remembers.mem_names, List.mem_dedup]
  rw [size, ← same.length_eq, Table.names, List.length_map]

/-- A name that was asked for before changes nothing. -/
theorem again (remembers : cache.Remembers contexts asked) {name : String}
    (known : name ∈ Table.names cache.closures) : cache.Remembers contexts (asked ++ [name]) where
  contexts_eq := remembers.contexts_eq
  faithful := remembers.faithful
  distinct := remembers.distinct
  mem_names other := by
    rw [List.mem_append, ← remembers.mem_names, List.mem_singleton]
    exact (or_iff_left_of_imp fun same => same ▸ known).symm

/-- The ancestry of a new name is kept behind the others. -/
theorem keep (remembers : cache.Remembers contexts asked) {name : String}
    (new : name ∉ Table.names cache.closures) :
    Remembers { cache with closures := Table.set name (contexts.ancestry name) cache.closures }
      contexts (asked ++ [name]) where
  contexts_eq := remembers.contexts_eq
  faithful other closure found := by
    by_cases same : other = name
    · subst same
      rw [Table.find?_set_self, Option.some.injEq] at found
      exact found.symm
    · rw [Table.find?_set_other same] at found
      exact remembers.faithful other closure found
  distinct := by
    rw [Table.names_set, if_neg new, ← List.concat_eq_append]
    exact remembers.distinct.concat new
  mem_names other := by
    rw [Table.names_set, if_neg new, List.mem_append, List.mem_append, remembers.mem_names]

/-- An answer is the ancestry of the name, whether it was kept or not, and it is kept. -/
theorem ancestry (remembers : cache.Remembers contexts asked) (name : String) :
    (cache.ancestry name).1 = contexts.ancestry name ∧
      (cache.ancestry name).2.Remembers contexts (asked ++ [name]) := by
  unfold AncestryCache.ancestry
  split
  next closure found =>
    have known := (Table.isSome_find?_iff name cache.closures).mp (found ▸ rfl)
    exact ⟨remembers.faithful name closure found, remembers.again known⟩
  next absent =>
    obtain rfl := remembers.contexts_eq
    exact ⟨rfl, remembers.keep ((Table.find?_eq_none_iff name cache.closures).mp absent)⟩

/-- Answers in turn are the ancestries of the names. -/
theorem askAll (remembers : cache.Remembers contexts asked) (names : List String) :
    (cache.askAll names).1 = names.map contexts.ancestry ∧
      (cache.askAll names).2.Remembers contexts (asked ++ names) := by
  -- By induction on the names; the cache of each step remembers what was asked until then.
  induction names generalizing cache asked with
  | nil => exact ⟨rfl, (List.append_nil asked).symm ▸ remembers⟩
  | cons name names ih =>
    obtain ⟨answer, later⟩ := remembers.ancestry name
    obtain ⟨answers, last⟩ := ih later
    rw [List.append_assoc] at last
    exact ⟨congrArg₂ List.cons answer answers, last⟩

end Remembers

/-- The first answer of a cache is the closure of the name, and the search for it has ended by
itself: no further step finds more. However often a cache is asked, each answer is that of a cache
that was not asked before, and it keeps one closure for each distinct name. -/
theorem ancestries_are_closures (contexts : ContextTable) :
    (∀ name, contexts.IsClosure name ((ofContexts contexts).ancestry name).1 ∧
      ∀ more, Search.visit contexts.ancestorsOf (contexts.inheritedNames.length + 1 + more)
        [name] [name] = ((ofContexts contexts).ancestry name).1) ∧
    ∀ asked,
      ((ofContexts contexts).askAll asked).1 =
        asked.map (fun name => ((ofContexts contexts).ancestry name).1) ∧
      ((ofContexts contexts).askAll asked).2.size = asked.dedup.length := by
  have first (name : String) : ((ofContexts contexts).ancestry name).1 = contexts.ancestry name :=
    ((Remembers.start contexts).ancestry name).1
  simp only [first]
  refine ⟨fun name => ⟨contexts.ancestry_isClosure name, fun more => ?_⟩, fun asked => ?_⟩
  · exact Search.visit_eq_reach contexts.ancestorsOf_subset more name
  · obtain ⟨answers, remembers⟩ := (Remembers.start contexts).askAll asked
    exact ⟨answers, remembers.size_eq⟩

/-- Two contexts inherit from each other, and one of them from a name that nothing defines. -/
example :
    ((ofContexts [("Auto", { name := "Auto", ancestors := ["Vehicle"] }),
      ("Vehicle", { name := "Vehicle", ancestors := ["Auto", "Asset"] })]).askAll
        ["Auto", "Asset", "Auto"]).1 = [["Auto", "Vehicle", "Asset"], ["Asset"],
          ["Auto", "Vehicle", "Asset"]] := by
  decide

end AncestryCache

end Rulebook

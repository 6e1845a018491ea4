import Mathlib.Data.List.Sort
import Rulebook.Proofs.Context.Inheritance
import Rulebook.Proofs.Dependency.Links

/-!
# Reading as a relation

The edges of a dependency graph are exactly the pairs of rules of which one reads what the other
writes, however many declarations or shared names connect them.
-/
namespace Rulebook

/-- One rule reads what another writes: it declares to read the path that the other targets, on a
context that shares a name with the other's context. -/
def Rule.ReadsFrom (contexts : ContextTable) (consumer producer : Rule) : Prop :=
  ∃ read ∈ consumer.reads, read.path = producer.target.path ∧
    ∃ name, contexts.AnswersTo read.context name ∧
      contexts.AnswersTo producer.target.context name

/-- The rule at one position reads what the rule at another position writes. -/
def ReadsAt (rules : List Rule) (contexts : ContextTable) (consumer producer : Nat) : Prop :=
  consumer ≠ producer ∧ ∃ reader writer, rules[consumer]? = some reader ∧
    rules[producer]? = some writer ∧ reader.ReadsFrom contexts writer

theorem ReadsAt.consumer_lt {rules : List Rule} {contexts : ContextTable}
    {consumer producer : Nat} (reads : ReadsAt rules contexts consumer producer) :
    consumer < rules.length := by
  obtain ⟨_, reader, _, found, _⟩ := reads
  exact (List.getElem?_eq_some_iff.mp found).1

theorem ReadsAt.producer_lt {rules : List Rule} {contexts : ContextTable}
    {consumer producer : Nat} (reads : ReadsAt rules contexts consumer producer) :
    producer < rules.length := by
  obtain ⟨_, _, writer, _, found, _⟩ := reads
  exact (List.getElem?_eq_some_iff.mp found).1

namespace RuleGraph

/-- Rules read from each other exactly if their footprints match. -/
theorem readsAt_iff_matches (rules : List Rule) (contexts : ContextTable)
    (consumer producer : Nat) :
    ReadsAt rules contexts consumer producer ↔ producer ≠ consumer ∧
      Links.Matches (rules.map fun rule => .ofAttribute contexts rule.target)
        (rules.map fun rule => rule.reads.map (.ofAttribute contexts)) producer consumer := by
  simp only [ReadsAt, Rule.ReadsFrom, Links.Matches, List.getElem?_map, Option.map_eq_some_iff,
    Footprint.ofAttribute]
  constructor
  · rintro ⟨apart, reader, writer, reads, writes, read, declared, path, name, left, right⟩
    exact ⟨apart.symm, _, ⟨reader, reads, rfl⟩, _, List.mem_map.mpr ⟨read, declared, rfl⟩, name,
      (contexts.mem_ancestry _ _).mpr left, _, ⟨writer, writes, rfl⟩, path.symm,
      (contexts.mem_ancestry _ _).mpr right⟩
  · rintro ⟨apart, _, ⟨reader, reads, rfl⟩, _, listed, name, left, _, ⟨writer, writes, rfl⟩, path,
      right⟩
    obtain ⟨read, declared, rfl⟩ := List.mem_map.mp listed
    exact ⟨apart.symm, reader, writer, reads, writes, read, declared, path.symm, name,
      (contexts.mem_ancestry _ _).mp left, (contexts.mem_ancestry _ _).mp right⟩

/-- Sorting a list without repetition makes it strictly ascending. -/
theorem pairwise_lt_mergeSort {positions : List Nat} (distinct : positions.Nodup) :
    positions.mergeSort.Pairwise (· < ·) := by
  have ascending : positions.mergeSort.Pairwise (· ≤ ·) :=
    List.pairwise_mergeSort' (· ≤ ·) positions
  have once : positions.mergeSort.Nodup := (List.mergeSort_perm positions _).nodup_iff.mpr distinct
  exact (ascending.and once).imp fun both => Nat.lt_of_le_of_ne both.1 both.2

section

variable (rules : List Rule) (contexts : ContextTable)

/-- The links that the graph of rules is made of. -/
def links : Links :=
  .between (rules.map fun rule => .ofAttribute contexts rule.target)
    (rules.map fun rule => rule.reads.map (.ofAttribute contexts))

/-- The records of a graph are in step, for all rules and contexts. -/
theorem mirrors_links : (links rules contexts).Mirrors rules.length := by
  have mirrors := Links.mirrors_between (rules.map fun rule => .ofAttribute contexts rule.target)
    (rules.map fun rule => rule.reads.map (.ofAttribute contexts)) (by simp)
  rwa [List.length_map] at mirrors

/-- A pair of a producer and its consumer was seen exactly if the one reads the other. -/
theorem mem_seen_links (producer consumer : Nat) :
    (producer, consumer) ∈ (links rules contexts).seen ↔
      ReadsAt rules contexts consumer producer := by
  rw [links, Links.mem_seen_between, readsAt_iff_matches]

/-- The graph keeps the producers of a position in ascending order. -/
theorem producersOf_ofRules (consumer : Nat) : (ofRules rules contexts).producersOf consumer =
    ((links rules contexts).producers.getD consumer []).mergeSort := by
  simp only [producersOf, ofRules, links, Array.getD_eq_getD_getElem?, Array.getElem?_map]
  cases (Links.between _ _).producers[consumer]? <;> simp

theorem consumersOf_ofRules (producer : Nat) : (ofRules rules contexts).consumersOf producer =
    ((links rules contexts).consumers.getD producer []).mergeSort := by
  simp only [consumersOf, ofRules, links, Array.getD_eq_getD_getElem?, Array.getElem?_map]
  cases (Links.between _ _).consumers[producer]? <;> simp

/-- The producers of a rule are the rules that it reads from. -/
theorem mem_producersOf (consumer producer : Nat) :
    producer ∈ (ofRules rules contexts).producersOf consumer ↔
      ReadsAt rules contexts consumer producer := by
  rw [producersOf_ofRules, List.mem_mergeSort, (mirrors_links rules contexts).mem_producers,
    mem_seen_links]

/-- The consumers of a rule are the rules that read from it. -/
theorem mem_consumersOf (producer consumer : Nat) :
    consumer ∈ (ofRules rules contexts).consumersOf producer ↔
      ReadsAt rules contexts consumer producer := by
  rw [consumersOf_ofRules, List.mem_mergeSort, (mirrors_links rules contexts).mem_consumers,
    mem_seen_links]

/-- Producers are listed in the order of the rules, each once. -/
theorem ascending_producersOf (consumer : Nat) :
    ((ofRules rules contexts).producersOf consumer).Pairwise (· < ·) := by
  rw [producersOf_ofRules]
  exact pairwise_lt_mergeSort ((mirrors_links rules contexts).nodup_producers consumer)

theorem ascending_consumersOf (producer : Nat) :
    ((ofRules rules contexts).consumersOf producer).Pairwise (· < ·) := by
  rw [consumersOf_ofRules]
  exact pairwise_lt_mergeSort ((mirrors_links rules contexts).nodup_consumers producer)

theorem nodup_producersOf (consumer : Nat) :
    ((ofRules rules contexts).producersOf consumer).Nodup :=
  (ascending_producersOf rules contexts consumer).imp Nat.ne_of_lt

theorem nodup_consumersOf (producer : Nat) :
    ((ofRules rules contexts).consumersOf producer).Nodup :=
  (ascending_consumersOf rules contexts producer).imp Nat.ne_of_lt

/-- The two families of lists are transposes of each other. -/
theorem consumersOf_eq_filter (producer : Nat) :
    (ofRules rules contexts).consumersOf producer =
      (ofRules rules contexts).positions.filter
        fun consumer => producer ∈ (ofRules rules contexts).producersOf consumer := by
  -- Ascending lists with the same members are equal.
  refine (ascending_consumersOf rules contexts producer).sortedLT.eq_of_mem_iff
    (List.pairwise_lt_range.filter _).sortedLT fun consumer => ?_
  simp only [List.mem_filter, mem_positions, rules_ofRules, decide_eq_true_eq, mem_producersOf,
    mem_consumersOf]
  exact ⟨fun reads => ⟨reads.consumer_lt, reads⟩, And.right⟩

end

end RuleGraph

end Rulebook

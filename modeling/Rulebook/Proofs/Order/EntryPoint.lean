import Rulebook.Proofs.Dependency.Least
import Rulebook.Proofs.Order.Content

/-!
# Entry points follow the order

An entry point of a built rule set names rules of the set, and the order of the set holds each of
its rules once. So the rules that are listed under the entry point are its members, each once
however often it was named, in the order of the whole set. What a rule reads stands before it there
as well, as far as it is a member at all.
-/
namespace Rulebook

open Relation (TransGen)

namespace RuleSet

variable {set : RuleSet}

/-- Every rule of a sequence stands behind the rules in it that it reads. -/
def ProducersFirst (set : RuleSet) (sequence : List Rule) : Prop :=
  ∀ consumer producer, set.Reads consumer producer → ∀ i j : Nat,
    sequence[i]? = some producer → sequence[j]? = some consumer → i < j

/-- No rule reads one that stands behind it. -/
theorem producersFirst_iff_pairwise (sequence : List Rule) :
    set.ProducersFirst sequence ↔
      sequence.Pairwise fun earlier later => ¬ set.Reads earlier later := by
  rw [List.pairwise_iff_getElem]
  constructor
  · intro first i j insideI insideJ before reads
    have behind := first _ _ reads j i (List.getElem?_eq_getElem insideJ)
      (List.getElem?_eq_getElem insideI)
    omega
  · intro apart consumer producer reads i j produces consumes
    obtain ⟨insideI, rfl⟩ := List.getElem?_eq_some_iff.mp produces
    obtain ⟨insideJ, rfl⟩ := List.getElem?_eq_some_iff.mp consumes
    -- No rule reads itself, so the positions differ.
    rcases Nat.lt_trichotomy i j with before | same | behind
    · exact before
    · subst same
      exact absurd rfl reads.2.2.1
    · exact absurd reads (apart j i insideJ insideI behind)

/-- A part of a sequence with producers first has them first. -/
theorem ProducersFirst.sublist {sequence part : List Rule} (first : set.ProducersFirst sequence)
    (sublist : part.Sublist sequence) : set.ProducersFirst part := by
  rw [producersFirst_iff_pairwise] at first ⊢
  exact first.sublist sublist

/-- A set with different rules can be ordered exactly if they do not read each other in a circle. -/
theorem exists_order_iff (distinct : set.rules.Nodup) :
    (∃ ordered, set.graph.order = .ok ordered) ↔ ∀ rule, ¬ TransGen set.Reads rule rule := by
  rw [acyclic_iff set distinct, ← RuleGraph.exists_orderedPositions_iff]
  constructor
  · rintro ⟨ordered, returned⟩
    obtain ⟨taken, scheduled, _⟩ := (RuleGraph.order_ok_iff _ _).mp returned
    exact ⟨taken, scheduled⟩
  · rintro ⟨taken, scheduled⟩
    exact ⟨_, (RuleGraph.order_ok_iff _ _).mpr ⟨taken, scheduled, rfl⟩⟩

/-- The entry points of declarations are those declared. -/
theorem mem_groups {declarations : List Declaration} {name : String} {members : List String} :
    (name, members) ∈ groups declarations ↔ .entryPoint name members ∈ declarations := by
  rw [groups, List.mem_filterMap]
  constructor
  · rintro ⟨declaration, member, kept⟩
    cases declaration with
    | rule draft => cases kept
    | context definition => cases kept
    | entryPoint name members =>
      cases kept
      exact member
  · exact fun member => ⟨_, member, rfl⟩

end RuleSet

namespace RuleOrder

/-- The rules of an order that an entry point names, each once, and in this order. -/
structure ListsMembers (order : RuleOrder) (members : List String) (listed : List Rule) :
    Prop where
  ordered : listed.Sublist order.rules
  once : ∀ member ∈ members, (listed.map (·.name)).count member = 1
  only : ∀ rule ∈ listed, rule.name ∈ members

variable {set : RuleSet} {order : RuleOrder}

/-- An order holds every rule of its set once. -/
theorem rules_perm (ordered : ofRuleSet set = .ok order) : order.rules.Perm set.rules := by
  obtain ⟨rules, returned, rfl⟩ := (ofRuleSet_ok_iff set order).mp ordered
  exact set.order_perm rules returned

/-- In an order, every rule stands behind those it reads. -/
theorem rules_producersFirst (ordered : ofRuleSet set = .ok order) :
    set.ProducersFirst order.rules := by
  obtain ⟨rules, returned, rfl⟩ := (ofRuleSet_ok_iff set order).mp ordered
  exact set.order_respects rules returned

/-- A set has an order exactly if its graph has one. -/
theorem exists_ofRuleSet_iff (set : RuleSet) :
    (∃ order, ofRuleSet set = .ok order) ↔ ∃ ordered, set.graph.order = .ok ordered := by
  simp only [ofRuleSet_ok_iff]
  constructor
  · rintro ⟨_, ordered, returned, _⟩
    exact ⟨ordered, returned⟩
  · rintro ⟨ordered, returned⟩
    exact ⟨_, ordered, returned, rfl⟩

/-- An entry point lists the rules of the order that it names. -/
theorem entryPoint?_eq (ordered : ofRuleSet set = .ok order) (name : String) :
    order.entryPoint? name = (Table.find? name set.entryPoints).map fun members =>
      order.rules.filter (·.name ∈ members) := by
  obtain ⟨rules, _, rfl⟩ := (ofRuleSet_ok_iff set order).mp ordered
  exact entryPoint?_ofSequence set rules name

/-- Names of rules that are told apart by them pick out one rule each. -/
theorem filter_listsMembers (distinct : (order.rules.map (·.name)).Nodup) {members : List String}
    (defined : ∀ member ∈ members, member ∈ order.rules.map (·.name)) :
    order.ListsMembers members (order.rules.filter (·.name ∈ members)) where
  ordered := List.filter_sublist
  once member named := by
    have part : ((order.rules.filter (·.name ∈ members)).map (·.name)).Sublist
        (order.rules.map (·.name)) := List.filter_sublist.map _
    -- No name is repeated among the rules, so none is among a part of them.
    refine List.count_eq_one_of_mem (part.nodup distinct) ?_
    obtain ⟨rule, held, rfl⟩ := List.mem_map.mp (defined member named)
    exact List.mem_map_of_mem (List.mem_filter.mpr ⟨held, decide_eq_true named⟩)
  only rule listed := of_decide_eq_true (List.mem_filter.mp listed).2

/-- A built rule set has an order exactly if its rules do not read each other in a circle. The order
then lists all rules of the set once, and under each entry point that was declared exactly its
members, each once and in the order of all rules, so that producers precede their consumers. Under
a name that was not declared it lists nothing. -/
theorem entry_points_list_members (declarations : List Declaration) (set : RuleSet)
    (built : RuleSet.ofDeclarations declarations = .ok set) :
    ((∃ order, ofRuleSet set = .ok order) ↔ ∀ rule, ¬ TransGen set.Reads rule rule) ∧
    ∀ order, ofRuleSet set = .ok order → order.rules.Perm set.rules ∧ ∀ name,
      (∀ members, .entryPoint name members ∈ declarations →
        ∃ listed, order.entryPoint? name = some listed ∧ order.ListsMembers members listed ∧
          set.ProducersFirst listed) ∧
      ((∀ members, .entryPoint name members ∉ declarations) → order.entryPoint? name = none) := by
  have valid := RuleSet.valid_of_ofDeclarations built
  -- The entry points of the set are the declared ones, and building has checked their members.
  obtain ⟨_, _, _, _, declared⟩ := RuleSet.ofDeclarations_ok built
  refine ⟨(exists_ofRuleSet_iff set).trans (RuleSet.exists_order_iff valid.rules_nodup), ?_⟩
  intro order ordered
  refine ⟨rules_perm ordered, fun name => ⟨fun members member => ?_, fun undeclared => ?_⟩⟩
  · have group : (name, members) ∈ set.entryPoints := declared ▸ RuleSet.mem_groups.mpr member
    have names := (rules_perm ordered).map (·.name)
    have lists := filter_listsMembers (names.nodup_iff.mpr valid.names_nodup)
      fun rule named => names.mem_iff.mpr (valid.members_defined _ group rule named)
    refine ⟨_, ?_, lists, (rules_producersFirst ordered).sublist lists.ordered⟩
    rw [entryPoint?_eq ordered, Table.find?_of_mem valid.groups_nodup group, Option.map_some]
  · have absent : Table.find? name set.entryPoints = none := by
      rw [Table.find?_eq_none_iff, declared]
      intro present
      obtain ⟨⟨_, members⟩, member, rfl⟩ := List.mem_map.mp present
      exact undeclared members (RuleSet.mem_groups.mp member)
    rw [entryPoint?_eq ordered, absent, Option.map_none]

/-- An entry point that names a total twice, and before the fee that the total reads. -/
def quotedCharges : RuleSet where
  rules := RuleGraph.charges
  contexts := []
  entryPoints := [("Quote", ["total", "fee", "total"])]

/-- The fee comes first, the total once, and the tax that stands between them not at all. -/
theorem entry_points_list_members_of_quote :
    RuleSet.ofDeclarations quotedCharges.toDeclarations = .ok quotedCharges ∧
      ∃ order, ofRuleSet quotedCharges = .ok order ∧
        order.names = ["fee", "tax", "total", "note"] ∧
        (order.entryPoint? "Quote").map (·.map (·.name)) = some ["fee", "total"] ∧
        (∃ listed, order.entryPoint? "Quote" = some listed ∧
          order.ListsMembers ["total", "fee", "total"] listed ∧
          quotedCharges.ProducersFirst listed) ∧
        order.entryPoint? "Renewal" = none := by
  have built : RuleSet.ofDeclarations quotedCharges.toDeclarations = .ok quotedCharges := rfl
  have listed : (quotedCharges.graph.order.map fun rules => (rules.map (·.name),
      (rules.filter (·.name ∈ ["total", "fee", "total"])).map (·.name))) =
        .ok (["fee", "tax", "total", "note"], ["fee", "total"]) := by cbv
  cases returned : quotedCharges.graph.order with
  | error failure => simp [returned, Except.map] at listed
  | ok rules =>
    have ordered := (ofRuleSet_ok_iff quotedCharges _).mpr ⟨rules, returned, rfl⟩
    have lists := ((entry_points_list_members _ _ built).2 _ ordered).2
    rw [returned] at listed
    obtain ⟨names, members⟩ := Prod.ext_iff.mp (Except.ok.inj listed)
    exact ⟨built, _, ordered, names, congrArg some members,
      (lists "Quote").1 _ (by simp [RuleSet.toDeclarations, quotedCharges]),
      (lists "Renewal").2 (by simp [RuleSet.toDeclarations, quotedCharges])⟩

end RuleOrder

end Rulebook

import Mathlib.Data.List.Sort
import Rulebook.Proofs.Dependency.Topology
import Rulebook.Proofs.Search.DepthFirst

/-!
# Cycles are components

Rules that cannot be ordered are reported by their strongly connected components: exactly the
components of at least two rules of the whole graph, each once, members and components in their
given order. A rule that only leads to a cycle, or waits for one, is in no such component.
-/
namespace Rulebook

open Relation (ReflTransGen TransGen)

section

variable (rules : List Rule) (contexts : ContextTable)

/-- Two positions read each other, directly or through others. -/
def Tied (left right : Nat) : Prop :=
  ReflTransGen (ReadsAt rules contexts) left right ∧
    ReflTransGen (ReadsAt rules contexts) right left

/-- A strongly connected component of at least two rules, by their ascending positions. -/
structure IsCycle (group : List Nat) : Prop where
  ascending : group.Pairwise (· < ·)
  plural : 2 ≤ group.length
  complete : ∀ member ∈ group, ∀ position, position ∈ group ↔ Tied rules contexts member position

end

/-- Different positions that read each other lie on a cycle. -/
theorem Tied.cycle {rules : List Rule} {contexts : ContextTable} {first second : Nat}
    (tied : Tied rules contexts first second) (apart : second ≠ first) :
    TransGen (ReadsAt rules contexts) first first := by
  rcases Relation.reflTransGen_iff_eq_or_transGen.mp tied.1 with same | chain
  · exact absurd same apart
  · exact chain.trans_left tied.2

/-- A list of at least two different members has a member beside any given one. -/
theorem exists_other {group : List Nat} (distinct : group.Nodup) (plural : 2 ≤ group.length)
    (member : Nat) : ∃ other ∈ group, other ≠ member := by
  by_contra alone
  simp only [not_exists, not_and, not_not] at alone
  match group, plural, alone, distinct with
  | first :: second :: _, _, alone, distinct =>
    have same : first = second := (alone first (by simp)).trans (alone second (by simp)).symm
    exact List.rel_of_pairwise_cons distinct (by simp) same

theorem IsCycle.transGen {rules : List Rule} {contexts : ContextTable} {group : List Nat}
    (cycle : IsCycle rules contexts group) (member : Nat) (inside : member ∈ group) :
    TransGen (ReadsAt rules contexts) member member := by
  have distinct : group.Nodup := cycle.ascending.imp (fun below => Nat.ne_of_lt below)
  obtain ⟨other, known, apart⟩ := exists_other distinct cycle.plural member
  exact ((cycle.complete member inside other).mp known).cycle apart

/-- Positions that every cycle lies in: with a rule they hold whatever reads it. -/
structure HoldsCycles (rules : List Rule) (contexts : ContextTable) (left : List Nat) : Prop where
  inside : ∀ position ∈ left, position < rules.length
  closed : ∀ producer ∈ left, ∀ consumer, ReadsAt rules contexts consumer producer → consumer ∈ left
  covers : ∀ position, TransGen (ReadsAt rules contexts) position position → position ∈ left

namespace RuleGraph

variable {rules : List Rule} {contexts : ContextTable} {left : List Nat}

/-- The search goes from a position to what reads it, within the given positions. -/
theorem mem_consumersWithin (producer consumer : Nat) :
    consumer ∈ (ofRules rules contexts).consumersWithin left producer ↔
      ReadsAt rules contexts consumer producer ∧ consumer ∈ left := by
  simp only [consumersWithin, List.mem_filter, decide_eq_true_eq, mem_consumersOf]

/-- Whatever the search reaches reads what it started from. -/
theorem reads_of_reachable {first last : Nat}
    (chain : Search.Reachable ((ofRules rules contexts).consumersWithin left) first last) :
    ReflTransGen (ReadsAt rules contexts) last first := by
  induction chain with
  | refl => exact .refl
  | tail _ edge ih => exact .head ((mem_consumersWithin _ _).mp edge).1 ih

/-- The search leaves its start only for what is within the given positions. -/
theorem mem_of_reachable {first last : Nat}
    (chain : Search.Reachable ((ofRules rules contexts).consumersWithin left) first last)
    (apart : first ≠ last) : last ∈ left := by
  rcases ReflTransGen.cases_tail chain with same | ⟨_, _, edge⟩
  · exact absurd same.symm apart
  · exact ((mem_consumersWithin _ _).mp edge).2

variable (holds : HoldsCycles rules contexts left)

include holds

/-- From what is left over, reading leads backwards through what is left over only. -/
theorem reachable_of_reads {first last : Nat} (member : first ∈ left)
    (chain : ReflTransGen (ReadsAt rules contexts) last first) :
    last ∈ left ∧ Search.Reachable ((ofRules rules contexts).consumersWithin left) first last := by
  -- By induction on the chain from its reader; every reader of something left over is left over.
  induction chain using ReflTransGen.head_induction_on with
  | refl => exact ⟨member, .refl⟩
  | head reads _ ih =>
    have within := holds.closed _ ih.1 _ reads
    exact ⟨within, ih.2.tail ((mem_consumersWithin _ _).mpr ⟨reads, within⟩)⟩

/-- What the search reaches in both directions are the positions that read each other. -/
theorem tied_iff {first last : Nat} (member : first ∈ left) :
    Search.Reachable ((ofRules rules contexts).consumersWithin left) first last ∧
        Search.Reachable ((ofRules rules contexts).consumersWithin left) last first ↔
      Tied rules contexts first last := by
  constructor
  · rintro ⟨forth, back⟩
    exact ⟨reads_of_reachable back, reads_of_reachable forth⟩
  · rintro ⟨forth, back⟩
    obtain ⟨lastIn, chain⟩ := reachable_of_reads holds member back
    exact ⟨chain, (reachable_of_reads holds lastIn forth).2⟩

/-- A component of the search lists exactly what is tied to any member of it. -/
theorem mem_component {component : List Nat} {member : Nat}
    (spec : Search.IsComponent ((ofRules rules contexts).consumersWithin left) component)
    (listed : member ∈ component) (within : member ∈ left) (position : Nat) :
    position ∈ component ↔ Tied rules contexts member position := by
  rw [spec.complete member listed position, tied_iff holds within]

omit holds in
/-- In a component of several rules each one is a reader. -/
theorem component_subset {component : List Nat}
    (spec : Search.IsComponent ((ofRules rules contexts).consumersWithin left) component)
    (plural : 2 ≤ component.length) : component ⊆ left := by
  intro member listed
  -- A second member leads to this one, and edges lead to what is left over only.
  obtain ⟨other, otherListed, apart⟩ := exists_other spec.distinct plural member
  exact mem_of_reachable ((spec.complete member listed other).mp otherListed).2 apart

/-- A component of several positions is a cycle once it is sorted. -/
theorem isCycle_component {component : List Nat}
    (spec : Search.IsComponent ((ofRules rules contexts).consumersWithin left) component)
    (plural : 2 ≤ component.length) : IsCycle rules contexts component.mergeSort := by
  refine ⟨pairwise_lt_mergeSort spec.distinct, by rwa [List.length_mergeSort], ?_⟩
  intro member listed position
  rw [List.mem_mergeSort] at listed ⊢
  exact mem_component holds spec listed (component_subset spec plural listed) position

/-- What the search finds among the positions that are left over. -/
theorem components_left :
    (∀ component ∈
        Search.components ((ofRules rules contexts).consumersWithin left) rules.length left,
      Search.IsComponent ((ofRules rules contexts).consumersWithin left) component) ∧
    (Search.components ((ofRules rules contexts).consumersWithin left) rules.length left).Pairwise
      List.Disjoint ∧
    ∀ position ∈ left, ∃ component ∈
      Search.components ((ofRules rules contexts).consumersWithin left) rules.length left,
      position ∈ component := by
  apply Search.components_spec _ _ _ _ holds.inside
  intro producer _ consumer edge
  exact ((mem_consumersWithin producer consumer).mp edge).1.consumer_lt

omit holds in
/-- Groups are the sorted components of at least two positions. -/
theorem mem_tiedGroups_iff (group : List Nat) :
    group ∈ (ofRules rules contexts).tiedGroups left ↔
      ∃ component ∈ Search.components ((ofRules rules contexts).consumersWithin left)
          rules.length left,
        2 ≤ component.length ∧ component.mergeSort = group := by
  simp only [tiedGroups, rules_ofRules, List.mem_mergeSort, List.mem_map, List.mem_filter,
    decide_eq_true_eq, and_assoc]

/-- The groups are exactly the cycles of the whole graph. -/
theorem mem_tiedGroups (group : List Nat) :
    group ∈ (ofRules rules contexts).tiedGroups left ↔ IsCycle rules contexts group := by
  obtain ⟨components, _, complete⟩ := components_left holds
  rw [mem_tiedGroups_iff]
  constructor
  · rintro ⟨component, found, plural, rfl⟩
    exact isCycle_component holds (components component found) plural
  · intro cycle
    -- A cycle has a first member, the component of which is the cycle again.
    have occupied : 0 < group.length := Nat.lt_of_lt_of_le (by decide) cycle.plural
    obtain ⟨first, rest, rfl⟩ := List.exists_cons_of_length_pos occupied
    have firstIn := holds.covers first (cycle.transGen first List.mem_cons_self)
    obtain ⟨component, found, member⟩ := complete first firstIn
    have spec := components component found
    have same : component.mergeSort = first :: rest := by
      -- Ascending lists with the same members are equal.
      apply (pairwise_lt_mergeSort spec.distinct).sortedLT.eq_of_mem_iff cycle.ascending.sortedLT
      intro position
      rw [List.mem_mergeSort, mem_component holds spec member firstIn,
        cycle.complete first List.mem_cons_self]
    refine ⟨component, found, ?_, same⟩
    rw [← List.length_mergeSort, same]
    exact cycle.plural

/-- Every position on a cycle of readings lies in a strongly connected component of several. -/
theorem exists_isCycle (position : Nat)
    (cycle : TransGen (ReadsAt rules contexts) position position) :
    ∃ group, IsCycle rules contexts group ∧ position ∈ group := by
  obtain ⟨components, _, complete⟩ := components_left holds
  have positionIn := holds.covers position cycle
  obtain ⟨component, found, member⟩ := complete position positionIn
  have spec := components component found
  -- The first step of the cycle leads to a second member, since no position reads itself.
  obtain ⟨next, reads, back⟩ := TransGen.head'_iff.mp cycle
  have other := (mem_component holds spec member positionIn next).mpr ⟨.single reads, back⟩
  have pair : [position, next] ⊆ component := by simp [member, other]
  have plural := (List.subperm_of_subset (by simp [reads.1]) pair).length_le
  exact ⟨_, isCycle_component holds spec plural, List.mem_mergeSort.mpr member⟩

/-- Components are listed by their first members. -/
theorem tiedGroups_sorted : ((ofRules rules contexts).tiedGroups left).Pairwise
    fun earlier later => ∃ first ∈ earlier, ∀ position ∈ later, first < position := by
  obtain ⟨_, apart, _⟩ := components_left holds
  -- Components share no node, so their first members differ wherever they do not repeat.
  have disjoint : ((ofRules rules contexts).tiedGroups left).Pairwise List.Disjoint := by
    refine (List.Perm.pairwise_iff (fun separate => separate.symm) (List.mergeSort_perm _ _)).mpr ?_
    refine List.pairwise_map.mpr ((apart.filter _).imp ?_)
    intro first second separate position inFirst inSecond
    exact separate (List.mem_mergeSort.mp inFirst) (List.mem_mergeSort.mp inSecond)
  have ascending : ((ofRules rules contexts).tiedGroups left).Pairwise
      fun earlier later => decide (earlier.headD 0 ≤ later.headD 0) = true := by
    apply List.pairwise_mergeSort
    · intro first second third
      simp only [decide_eq_true_eq]
      exact Nat.le_trans
    · intro first second
      simp only [Bool.or_eq_true, decide_eq_true_eq]
      exact Nat.le_total _ _
  refine (disjoint.and ascending).imp_of_mem ?_
  rintro earlier later earlierListed laterListed ⟨separate, below⟩
  have earlierCycle := (mem_tiedGroups holds earlier).mp earlierListed
  have laterCycle := (mem_tiedGroups holds later).mp laterListed
  match earlier, later, earlierCycle.plural, laterCycle.plural with
  | first :: _, second :: rest, _, _ =>
    refine ⟨first, List.mem_cons_self, ?_⟩
    intro position member
    have strict : first < second := by
      refine Nat.lt_of_le_of_ne (of_decide_eq_true below) ?_
      rintro rfl
      exact separate List.mem_cons_self List.mem_cons_self
    rcases List.mem_cons.mp member with rfl | after
    · exact strict
    · exact Nat.lt_trans strict (List.rel_of_pairwise_cons laterCycle.ascending after)

end RuleGraph

/-- Every cycle lies in what the schedule leaves over. -/
theorem RuleGraph.holdsCycles_leftOver (rules : List Rule) (contexts : ContextTable) :
    HoldsCycles rules contexts (ofRules rules contexts).leftOver := by
  have mem_left (position : Nat) : position ∈ (ofRules rules contexts).leftOver ↔
      position < rules.length ∧ position ∉ (ofRules rules contexts).taken := by
    simp [leftOver]
  constructor
  · exact fun position member => ((mem_left position).mp member).1
  · intro producer member consumer reads
    -- A taken rule reads taken ones only.
    refine (mem_left consumer).mpr ⟨reads.consumer_lt, fun taken => ?_⟩
    exact ((mem_left producer).mp member).2 (taken_respects rules contexts _ _ taken reads).1
  · intro position cycle
    obtain ⟨_, reads, _⟩ := TransGen.head'_iff.mp cycle
    exact (mem_left position).mpr ⟨reads.consumer_lt, fun taken =>
      taken_acyclic rules contexts position taken cycle⟩

/-- Rules that read each other in a circle are refused, and the report lists exactly the strongly
connected components of at least two rules, by their first members. Only rules on a cycle are
reported. -/
theorem RuleSet.order_reports_cycles (set : RuleSet)
    (cyclic : ∃ position, TransGen (ReadsAt set.rules set.contexts) position position) :
    ∃ groups : List (List Nat),
      set.graph.order = .error ⟨groups.map fun group => ⟨set.graph.rulesAt group⟩⟩ ∧
      (∀ group, group ∈ groups ↔ IsCycle set.rules set.contexts group) ∧
      (groups.Pairwise fun earlier later =>
        ∃ first ∈ earlier, ∀ position ∈ later, first < position) ∧
      ∀ position, (∃ group ∈ groups, position ∈ group) ↔
        TransGen (ReadsAt set.rules set.contexts) position position := by
  have holds := RuleGraph.holdsCycles_leftOver set.rules set.contexts
  refine ⟨set.graph.tiedGroups set.graph.leftOver, ?_, RuleGraph.mem_tiedGroups holds,
    RuleGraph.tiedGroups_sorted holds, ?_⟩
  -- The schedule cannot take everything, for then there would be no cycle.
  · have refused : set.graph.orderedPositions = .error ⟨set.graph.cycles set.graph.leftOver⟩ := by
      cases scheduled : set.graph.orderedPositions with
      | error failure => rw [RuleGraph.orderedPositions_error _ failure scheduled]
      | ok taken =>
        obtain ⟨position, cycle⟩ := cyclic
        exact absurd cycle
          (RuleGraph.acyclic_of_orderedPositions set.rules set.contexts taken scheduled position)
    rw [RuleGraph.order, refused]
    rfl
  · intro position
    constructor
    · rintro ⟨group, listed, member⟩
      exact ((RuleGraph.mem_tiedGroups holds group).mp listed).transGen position member
    · intro cycle
      obtain ⟨group, component, member⟩ := RuleGraph.exists_isCycle holds position cycle
      exact ⟨group, (RuleGraph.mem_tiedGroups holds group).mpr component, member⟩

/-- Two interleaved cycles, a rule that leads to one of them, and a rule that waits for both. -/
def RuleSet.interleavedCycles : RuleSet where
  rules := [readingRule "base" ⟨"Policy", "base"⟩ [⟨"Policy", "limit"⟩],
    readingRule "fee" ⟨"Policy", "fee"⟩ [⟨"Policy", "tax"⟩],
    readingRule "limit" ⟨"Policy", "limit"⟩ [⟨"Policy", "base"⟩, ⟨"Policy", "state"⟩],
    readingRule "tax" ⟨"Policy", "tax"⟩ [⟨"Policy", "fee"⟩],
    readingRule "state" ⟨"Policy", "state"⟩ [],
    readingRule "total" ⟨"Policy", "total"⟩ [⟨"Policy", "base"⟩, ⟨"Policy", "fee"⟩]]
  contexts := []
  entryPoints := []

theorem RuleSet.order_reports_interleaved_cycles :
    ∃ groups : List (List Nat), interleavedCycles.graph.order =
        .error ⟨groups.map fun group => ⟨interleavedCycles.graph.rulesAt group⟩⟩ ∧
      (∃ group ∈ groups, 0 ∈ group) ∧ ¬ ∃ group ∈ groups, 4 ∈ group := by
  have forth : ReadsAt interleavedCycles.rules interleavedCycles.contexts 0 2 :=
    ⟨by decide, _, _, rfl, rfl, ⟨"Policy", "limit"⟩, by simp [readingRule], rfl, "Policy",
      .refl, .refl⟩
  have back : ReadsAt interleavedCycles.rules interleavedCycles.contexts 2 0 :=
    ⟨by decide, _, _, rfl, rfl, ⟨"Policy", "base"⟩, by simp [readingRule], rfl, "Policy",
      .refl, .refl⟩
  have cycle := TransGen.head forth (.single back)
  obtain ⟨groups, refused, _, _, reported⟩ := order_reports_cycles interleavedCycles ⟨0, cycle⟩
  refine ⟨groups, refused, (reported 0).mpr cycle, ?_⟩
  rw [reported 4]
  intro upstream
  -- The rule that leads to a cycle reads nothing itself.
  obtain ⟨_, ⟨_, reader, _, found, _, read, declared, _⟩, _⟩ := TransGen.head'_iff.mp upstream
  obtain rfl : readingRule "state" ⟨"Policy", "state"⟩ [] = reader := Option.some.inj found
  simp [readingRule] at declared

example : RuleSet.interleavedCycles.graph.order.mapError (·.cycles.map RuleCycle.names) =
    .error [["base", "limit"], ["fee", "tax"]] := by cbv

end Rulebook

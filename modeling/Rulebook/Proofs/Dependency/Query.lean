import Mathlib.Data.Set.Card
import Rulebook.Proofs.Dependency.Topology

/-!
# What a graph answers about reading

Rules with different names are told apart by their names and by their positions alike. So the
producers of a rule are exactly the rules that it reads, its consumers exactly those that read it,
and the edges are the pairs of rules of which one reads the other. However many declarations or
shared names connect two rules, they are listed for each other once and count as one edge.
-/
namespace Rulebook

/-- One rule reads what a different one writes. -/
def Rule.ReadsOther (contexts : ContextTable) (consumer producer : Rule) : Prop :=
  producer ≠ consumer ∧ consumer.ReadsFrom contexts producer

/-- The names of exactly those rules that are asked for, each once and in the order of the rules. -/
structure ListsNames (rules : List Rule) (wanted : Rule → Prop) (names : List String) : Prop where
  complete : ∀ name, name ∈ names ↔ ∃ rule ∈ rules, wanted rule ∧ rule.name = name
  distinct : names.Nodup
  ordered : names.Sublist (rules.map (·.name))

namespace RuleGraph

/-- Rules at ascending positions stand in the given order. -/
theorem rulesAt_sublist (graph : RuleGraph) {taken : List Nat} (ascending : taken.Pairwise (· < ·))
    (inside : ∀ position ∈ taken, position < graph.rules.length) :
    (graph.rulesAt taken).Sublist graph.rules := by
  have within : taken ⊆ graph.positions :=
    fun position member => (graph.mem_positions position).mpr (inside position member)
  have part : taken.Sublist graph.positions :=
    List.sublist_of_subperm_of_pairwise
      (List.subperm_of_subset (ascending.imp Nat.ne_of_lt) within) ascending List.pairwise_lt_range
  have all := part.filterMap (graph.rules[·]?)
  rwa [← rulesAt, ← rulesAt, rulesAt_positions] at all

section

variable {rules : List Rule} (contexts : ContextTable) (distinct : (rules.map (·.name)).Nodup)

include distinct

/-- A rule is found under its name at the position where it stands. -/
theorem position?_eq {position : Nat} {rule : Rule} (found : rules[position]? = some rule) :
    (ofRules rules contexts).position? rule.name = some position := by
  obtain ⟨inside, rfl⟩ := List.getElem?_eq_some_iff.mp found
  refine List.findIdx?_eq_some_iff_getElem.mpr ⟨inside, by simp, fun earlier before named => ?_⟩
  -- An earlier rule of the same name would be a repetition.
  have before' : earlier < (rules.map (·.name)).length := by
    rw [List.length_map]
    exact Nat.lt_trans before inside
  have same : (rules.map (·.name))[earlier]? = (rules.map (·.name))[position]? := by
    rw [List.getElem?_map, List.getElem?_map, List.getElem?_eq_getElem inside,
      List.getElem?_eq_getElem (Nat.lt_trans before inside), Option.map_some, Option.map_some]
    exact congrArg some (of_decide_eq_true named)
  exact Nat.ne_of_lt before ((List.getElem?_inj before' distinct).mp same)

/-- Reading between positions is reading between the different rules that stand there. -/
theorem readsAt_iff {consumer producer : Nat} {reader writer : Rule}
    (reads : rules[consumer]? = some reader) (writes : rules[producer]? = some writer) :
    ReadsAt rules contexts consumer producer ↔ reader.ReadsOther contexts writer := by
  have inside := (List.getElem?_eq_some_iff.mp reads).1
  -- Rules without repetition differ exactly if their positions do.
  have apart : consumer ≠ producer ↔ writer ≠ reader := by
    rw [not_iff_not, ← List.getElem?_inj inside distinct.of_map, reads, writes, Option.some.injEq,
      eq_comm]
  constructor
  · rintro ⟨other, reader', writer', reads', writes', related⟩
    obtain rfl := Option.some.inj (reads.symm.trans reads')
    obtain rfl := Option.some.inj (writes.symm.trans writes')
    exact ⟨apart.mp other, related⟩
  · exact fun ⟨other, related⟩ => ⟨apart.mpr other, reader, writer, reads, writes, related⟩

/-- Ascending positions of exactly those rules that are asked for give their names. -/
theorem listsNames_rulesAt {taken : List Nat} (ascending : taken.Pairwise (· < ·))
    {wanted : Rule → Prop}
    (complete : ∀ position, position ∈ taken ↔ ∃ rule, rules[position]? = some rule ∧ wanted rule) :
    ListsNames rules wanted (((ofRules rules contexts).rulesAt taken).map (·.name)) := by
  -- Ascending positions give a part of the rules, and with it order and distinctness of the names.
  have part : ((ofRules rules contexts).rulesAt taken).Sublist rules := by
    refine rulesAt_sublist (ofRules rules contexts) ascending fun position member => ?_
    obtain ⟨_, found, _⟩ := (complete position).mp member
    exact (List.getElem?_eq_some_iff.mp found).1
  refine ⟨fun name => ?_, (part.map _).nodup distinct, part.map _⟩
  simp only [rulesAt, List.mem_map, List.mem_filterMap, rules_ofRules]
  constructor
  · rintro ⟨rule, ⟨position, member, found⟩, named⟩
    obtain ⟨other, found', asked⟩ := (complete position).mp member
    obtain rfl := Option.some.inj (found.symm.trans found')
    exact ⟨rule, List.mem_of_getElem? found, asked, named⟩
  · rintro ⟨rule, member, asked, named⟩
    obtain ⟨position, found⟩ := List.mem_iff_getElem?.mp member
    exact ⟨rule, ⟨position, (complete position).mpr ⟨rule, found, asked⟩, found⟩, named⟩

/-- Every rule is answered with the names of what it reads. -/
theorem exists_producerNames? {consumer : Rule} (member : consumer ∈ rules) :
    ∃ names, (ofRules rules contexts).producerNames? consumer.name = some names ∧
      ListsNames rules (consumer.ReadsOther contexts) names := by
  obtain ⟨position, found⟩ := List.mem_iff_getElem?.mp member
  refine ⟨_, by rw [producerNames?, position?_eq contexts distinct found, Option.map_some], ?_⟩
  have ascending := ascending_producersOf rules contexts position
  refine listsNames_rulesAt contexts distinct ascending fun other => ?_
  rw [mem_producersOf]
  constructor
  · intro reads
    have writes := List.getElem?_eq_getElem reads.producer_lt
    exact ⟨_, writes, (readsAt_iff contexts distinct found writes).mp reads⟩
  · rintro ⟨producer, writes, reads⟩
    exact (readsAt_iff contexts distinct found writes).mpr reads

/-- Every rule is answered with the names of what reads it. -/
theorem exists_consumerNames? {producer : Rule} (member : producer ∈ rules) :
    ∃ names, (ofRules rules contexts).consumerNames? producer.name = some names ∧
      ListsNames rules (fun consumer => consumer.ReadsOther contexts producer) names := by
  obtain ⟨position, found⟩ := List.mem_iff_getElem?.mp member
  refine ⟨_, by rw [consumerNames?, position?_eq contexts distinct found, Option.map_some], ?_⟩
  refine listsNames_rulesAt contexts distinct (ascending_consumersOf rules contexts position)
    fun other => ?_
  rw [mem_consumersOf]
  constructor
  · intro reads
    have consumes := List.getElem?_eq_getElem reads.consumer_lt
    exact ⟨_, consumes, (readsAt_iff contexts distinct consumes found).mp reads⟩
  · rintro ⟨consumer, consumes, reads⟩
    exact (readsAt_iff contexts distinct consumes found).mpr reads

/-- Edges are as many as pairs of rules of which one reads the other. -/
theorem edgeCount_eq_ncard : (ofRules rules contexts).edgeCount =
    {pair : Rule × Rule | pair.1 ∈ rules ∧ pair.2 ∈ rules ∧
      pair.1.ReadsOther contexts pair.2}.ncard := by
  -- The pairs that were seen name the producer first.
  have counted : (ofRules rules contexts).edgeCount =
      {pair : Nat × Nat | ReadsAt rules contexts pair.1 pair.2}.ncard := by
    have once := (mirrors_links rules contexts).distinct.map Prod.swap_injective
    have edges : (ofRules rules contexts).edgeCount =
        ((links rules contexts).seen.map Prod.swap).length := (List.length_map _).symm
    rw [edges, ← List.toFinset_card_of_nodup once, ← Set.ncard_coe_finset]
    congr 1
    ext ⟨consumer, producer⟩
    simp only [List.coe_toFinset, Set.mem_ofPred_eq, ← mem_seen_links]
    exact List.mem_map_swap _ _ _
  -- No rule is repeated, so positions and the rules that they hold correspond.
  rw [counted]
  refine Set.ncard_congr
    (fun pair reads =>
      (rules.get ⟨pair.1, reads.consumer_lt⟩, rules.get ⟨pair.2, reads.producer_lt⟩))
    ?inside ?injective ?surjective
  case inside =>
    intro pair reads
    exact ⟨List.getElem_mem _, List.getElem_mem _, (readsAt_iff contexts distinct
      (List.getElem?_eq_getElem reads.consumer_lt) (List.getElem?_eq_getElem reads.producer_lt)).mp
        reads⟩
  case injective =>
    intro pair other reads reads' same
    have apart := distinct.of_map
    exact Prod.ext (apart.getElem_inj_iff.mp (Prod.ext_iff.mp same).1)
      (apart.getElem_inj_iff.mp (Prod.ext_iff.mp same).2)
  -- Related rules stand at positions, which are then related.
  case surjective =>
    rintro ⟨consumer, producer⟩ ⟨consumes, produces, reads⟩
    obtain ⟨reader, found⟩ := List.mem_iff_getElem?.mp consumes
    obtain ⟨writer, found'⟩ := List.mem_iff_getElem?.mp produces
    refine ⟨(reader, writer), (readsAt_iff contexts distinct found found').mpr reads, ?_⟩
    exact Prod.ext (List.getElem?_eq_some_iff.mp found).2 (List.getElem?_eq_some_iff.mp found').2

end

/-- The graph of rules with different names answers by one relation: a rule must run behind exactly
the rules that it reads and before exactly the rules that read it, each listed once and in the given
order, and there are as many edges as pairs that are related. -/
theorem queries_tell_reading (rules : List Rule) (contexts : ContextTable)
    (distinct : (rules.map (·.name)).Nodup) :
    (∀ consumer ∈ rules, ∃ names,
      (ofRules rules contexts).producerNames? consumer.name = some names ∧
        ListsNames rules (consumer.ReadsOther contexts) names) ∧
    (∀ producer ∈ rules, ∃ names,
      (ofRules rules contexts).consumerNames? producer.name = some names ∧
        ListsNames rules (fun consumer => consumer.ReadsOther contexts producer) names) ∧
    (ofRules rules contexts).edgeCount =
      {pair : Rule × Rule | pair.1 ∈ rules ∧ pair.2 ∈ rules ∧
        pair.1.ReadsOther contexts pair.2}.ncard :=
  ⟨fun _ => exists_producerNames? contexts distinct,
    fun _ => exists_consumerNames? contexts distinct, edgeCount_eq_ncard contexts distinct⟩

/-- The rate reads the value through two contexts that share all their names, and itself; the value
reads itself through a name that its context inherits. -/
def vehicleRules : List Rule :=
  [RuleSet.readingRule "rate" ⟨"Policy", "rate"⟩
      [⟨"Auto", "value"⟩, ⟨"Vehicle", "value"⟩, ⟨"Policy", "rate"⟩],
    RuleSet.readingRule "note" ⟨"Policy", "note"⟩ [],
    RuleSet.readingRule "value" ⟨"Auto", "value"⟩ [⟨"Asset", "value"⟩]]

/-- Many names and declarations connect the rate with the value, and they make one edge. -/
theorem queries_tell_reading_of_vehicles :
    let contexts := RuleSet.circularContexts.contexts
    (vehicleRules.map (·.name)).Nodup ∧
      (ofRules vehicleRules contexts).producerNames? "rate" = some ["value"] ∧
      (ofRules vehicleRules contexts).consumerNames? "value" = some ["rate"] ∧
      {pair : Rule × Rule | pair.1 ∈ vehicleRules ∧ pair.2 ∈ vehicleRules ∧
        pair.1.ReadsOther contexts pair.2}.ncard = 1 := by
  intro contexts
  have distinct : (vehicleRules.map (·.name)).Nodup := by decide
  have counted : (ofRules vehicleRules contexts).edgeCount = 1 := by cbv
  exact ⟨distinct, by cbv, by cbv,
    (queries_tell_reading vehicleRules contexts distinct).2.2.symm.trans counted⟩

end RuleGraph

end Rulebook

import Rulebook.Order.Basic
import Rulebook.Proofs.Dependency.Reading
import Rulebook.Proofs.Dependency.Schedule
import Rulebook.Proofs.Rule.Validity

/-!
# Orders are topological

Rules can be ordered exactly if reading has no cycle. The order holds every rule once, and every
rule stands behind the rules it reads.
-/
namespace Rulebook

open Relation (TransGen)

namespace RuleGraph

/-- Positions that exist are answered with their rules, at the same places. -/
theorem getElem?_rulesAt (graph : RuleGraph) (taken : List Nat)
    (inside : ∀ position ∈ taken, position < graph.rules.length) (index : Nat) :
    (graph.rulesAt taken)[index]? = taken[index]?.bind (graph.rules[·]?) := by
  induction taken generalizing index with
  | nil => rfl
  | cons first rest ih =>
    have found := List.getElem?_eq_getElem (inside first List.mem_cons_self)
    have tail := ih (fun position member => inside position (List.mem_cons_of_mem _ member))
    simp only [rulesAt, List.filterMap_cons_some found] at tail ⊢
    cases index with
    | zero => simp [found]
    | succ index => simpa using tail index

/-- All positions together give all rules. -/
theorem rulesAt_positions (graph : RuleGraph) : graph.rulesAt graph.positions = graph.rules := by
  apply List.ext_getElem?
  intro index
  rw [getElem?_rulesAt graph _ (by simp [positions])]
  by_cases inside : index < graph.rules.length
  · simp [positions, List.getElem?_range inside]
  · simp [positions, inside]

/-- What the schedule of a graph takes. -/
def taken (graph : RuleGraph) : List Nat :=
  Dependency.schedule graph.producersOf graph.consumersOf graph.rules.length

/-- What the schedule of a graph leaves over. -/
def leftOver (graph : RuleGraph) : List Nat :=
  graph.positions.filter (· ∉ graph.taken)

/-- An order is returned exactly if the schedule takes everything. -/
theorem orderedPositions_ok_iff (graph : RuleGraph) (ordered : List Nat) :
    graph.orderedPositions = .ok ordered ↔
      graph.taken.length = graph.rules.length ∧ graph.taken = ordered := by
  unfold orderedPositions
  simp only
  split
  next all => simp [taken, all]
  next some => simp [taken, some]

/-- A failure reports the cycles in what is left over. -/
theorem orderedPositions_error (graph : RuleGraph) (failure : CycleError)
    (returned : graph.orderedPositions = .error failure) :
    failure = ⟨graph.cycles graph.leftOver⟩ := by
  unfold orderedPositions at returned
  simp only at returned
  split at returned
  next => cases returned
  next => exact (Except.error.inj returned).symm

theorem order_ok_iff (graph : RuleGraph) (ordered : List Rule) :
    graph.order = .ok ordered ↔
      ∃ taken, graph.orderedPositions = .ok taken ∧ graph.rulesAt taken = ordered := by
  unfold order
  cases graph.orderedPositions with
  | error failure => simp [Except.map]
  | ok taken => simp [Except.map]

section

variable (rules : List Rule) (contexts : ContextTable)

/-- In a graph of rules, the consumers of a position are the positions that have it as a producer.
-/
theorem mirrors : Dependency.Mirrors (ofRules rules contexts).producersOf
    (ofRules rules contexts).consumersOf (ofRules rules contexts).rules.length where
  needs_lt position need needed :=
    ((mem_producersOf rules contexts position need).mp needed).producer_lt
  needs_nodup := nodup_producersOf rules contexts
  neededBy_nodup := nodup_consumersOf rules contexts
  mem_neededBy position other := by
    rw [consumersOf_eq_filter, List.mem_filter, mem_positions, decide_eq_true_eq]

/-- What is taken, in the order that looking for the earliest ready position gives. -/
theorem taken_eq : (ofRules rules contexts).taken =
    (Dependency.greedy (ofRules rules contexts).producersOf (ofRules rules contexts).positions).1 :=
  Dependency.schedule_eq_greedy (mirrors rules contexts)

/-- What is taken and what is left over are all positions, each once. -/
theorem taken_perm : ((ofRules rules contexts).taken ++ (Dependency.greedy
    (ofRules rules contexts).producersOf (ofRules rules contexts).positions).2).Perm
      (ofRules rules contexts).positions := by
  rw [taken_eq]
  exact Dependency.greedy_perm _ _

theorem taken_nodup : (ofRules rules contexts).taken.Nodup := by
  have distinct := (taken_perm rules contexts).nodup_iff.mpr List.nodup_range
  exact (List.nodup_append.mp distinct).1

theorem taken_lt : ∀ position ∈ (ofRules rules contexts).taken, position < rules.length := by
  intro position member
  have known := (taken_perm rules contexts).mem_iff.mp (List.mem_append_left _ member)
  simpa using known

/-- What a taken rule reads was taken before it. -/
theorem taken_respects (consumer producer : Nat)
    (member : consumer ∈ (ofRules rules contexts).taken)
    (reads : ReadsAt rules contexts consumer producer) :
    producer ∈ (ofRules rules contexts).taken ∧ (ofRules rules contexts).taken.idxOf producer <
      (ofRules rules contexts).taken.idxOf consumer := by
  obtain ⟨before, after, split⟩ := List.append_of_mem member
  -- The consumer was taken when nothing that it needs was waiting any more.
  have earlier : producer ∈ before := by
    apply Dependency.greedy_needs_taken (ofRules rules contexts).producersOf
      (ofRules rules contexts).positions before after consumer producer
    · rw [← taken_eq, split]
    · exact (mem_producersOf rules contexts consumer producer).mpr reads
    · exact List.mem_range.mpr reads.producer_lt
  have distinct := taken_nodup rules contexts
  rw [split] at distinct ⊢
  have once : consumer ∉ before :=
    fun again => List.disjoint_of_nodup_append distinct again List.mem_cons_self
  refine ⟨List.mem_append_left _ earlier, ?_⟩
  calc (before ++ consumer :: after).idxOf producer
      = before.idxOf producer := List.idxOf_append_of_mem earlier
    _ < before.length := List.idxOf_lt_length_of_mem earlier
    _ = (before ++ consumer :: after).idxOf consumer := by
      simp [List.idxOf_append_of_notMem once]

/-- A rule on a cycle is never taken. -/
theorem taken_acyclic (position : Nat) (member : position ∈ (ofRules rules contexts).taken) :
    ¬ TransGen (ReadsAt rules contexts) position position := by
  -- Along a chain of readings the positions move to the front, so no chain comes back.
  have descending (last : Nat) (chain : TransGen (ReadsAt rules contexts) position last) :
      last ∈ (ofRules rules contexts).taken ∧ (ofRules rules contexts).taken.idxOf last <
        (ofRules rules contexts).taken.idxOf position := by
    induction chain with
    | single reads => exact taken_respects rules contexts _ _ member reads
    | tail _ reads ih =>
      obtain ⟨within, below⟩ := taken_respects rules contexts _ _ ih.1 reads
      exact ⟨within, Nat.lt_trans below ih.2⟩
  exact fun cycle => Nat.lt_irrefl _ (descending position cycle).2

/-- Whatever is left over contains a cycle. -/
theorem exists_cycle_of_left (occupied : (ofRules rules contexts).taken.length ≠ rules.length) :
    ∃ position, TransGen (ReadsAt rules contexts) position position := by
  have whole := (taken_perm rules contexts).length_eq
  have waits := Dependency.greedy_left_needs (ofRules rules contexts).producersOf
    (ofRules rules contexts).positions
  -- Everything left over needs something left over, and there are finitely many positions.
  obtain ⟨position, _, cycle⟩ := Dependency.exists_cycle (ReadsAt rules contexts)
    (Dependency.greedy (ofRules rules contexts).producersOf (ofRules rules contexts).positions).2
    (by
      -- Something is left over, as the schedule is too short.
      intro none
      apply occupied
      simpa [none] using whole)
    (by
      intro position member
      obtain ⟨need, inside, needed⟩ := waits position member
      exact ⟨need, inside, (mem_producersOf rules contexts position need).mp needed⟩)
  exact ⟨position, cycle⟩

/-- A returned order holds every position once. -/
theorem orderedPositions_perm (ordered : List Nat)
    (scheduled : (ofRules rules contexts).orderedPositions = .ok ordered) :
    ordered.Perm (ofRules rules contexts).positions := by
  obtain ⟨all, rfl⟩ := (orderedPositions_ok_iff _ ordered).mp scheduled
  have parted := taken_perm rules contexts
  have whole := parted.length_eq
  rw [List.length_append, all, length_positions] at whole
  have none := List.eq_nil_of_length_eq_zero (Nat.add_eq_left.mp whole)
  rwa [none, List.append_nil] at parted

/-- Where an order is returned, reading has no cycle. -/
theorem acyclic_of_orderedPositions (ordered : List Nat)
    (scheduled : (ofRules rules contexts).orderedPositions = .ok ordered) (position : Nat) :
    ¬ TransGen (ReadsAt rules contexts) position position := by
  intro cycle
  obtain ⟨_, reads, _⟩ := TransGen.head'_iff.mp cycle
  have known := (orderedPositions_perm rules contexts ordered scheduled).mem_iff.mpr
    (List.mem_range.mpr reads.consumer_lt)
  obtain ⟨_, rfl⟩ := (orderedPositions_ok_iff _ ordered).mp scheduled
  exact taken_acyclic rules contexts position known cycle

/-- Positions can be ordered exactly if reading has no cycle. -/
theorem exists_orderedPositions_iff :
    (∃ ordered, (ofRules rules contexts).orderedPositions = .ok ordered) ↔
      ∀ position, ¬ TransGen (ReadsAt rules contexts) position position := by
  constructor
  · rintro ⟨ordered, scheduled⟩
    exact acyclic_of_orderedPositions rules contexts ordered scheduled
  · intro acyclic
    refine ⟨_, (orderedPositions_ok_iff _ _).mpr ⟨?_, rfl⟩⟩
    by_contra occupied
    obtain ⟨position, cycle⟩ := exists_cycle_of_left rules contexts occupied
    exact acyclic position cycle

end

end RuleGraph

namespace RuleSet

/-- One rule of a set reads what a different one writes. -/
def Reads (set : RuleSet) (consumer producer : Rule) : Prop :=
  consumer ∈ set.rules ∧ producer ∈ set.rules ∧ consumer ≠ producer ∧
    consumer.ReadsFrom set.contexts producer

/-- A chain of readings between rules is one between their positions. -/
theorem transGen_readsAt (set : RuleSet) {first last : Rule} (chain : TransGen set.Reads first last)
    (start finish : Nat) (starts : set.rules[start]? = some first)
    (finishes : set.rules[finish]? = some last) :
    TransGen (ReadsAt set.rules set.contexts) start finish := by
  have step {consumer producer : Rule} (reads : set.Reads consumer producer) (left right : Nat)
      (consumes : set.rules[left]? = some consumer) (produces : set.rules[right]? = some producer) :
      ReadsAt set.rules set.contexts left right := by
    obtain ⟨_, _, apart, reading⟩ := reads
    refine ⟨?_, consumer, producer, consumes, produces, reading⟩
    rintro rfl
    exact apart (Option.some.inj (consumes.symm.trans produces))
  -- By induction on the chain; every rule in its middle stands at some position.
  induction chain generalizing finish with
  | single reads => exact .single (step reads start finish starts finishes)
  | tail _ reads ih =>
    obtain ⟨middle, found⟩ := List.mem_iff_getElem?.mp reads.1
    exact (ih middle found).tail (step reads middle finish found finishes)

/-- A chain of readings between positions is one between their rules. -/
theorem transGen_reads (set : RuleSet) (distinct : set.rules.Nodup) {start finish : Nat}
    (chain : TransGen (ReadsAt set.rules set.contexts) start finish) (first last : Rule)
    (starts : set.rules[start]? = some first) (finishes : set.rules[finish]? = some last) :
    TransGen set.Reads first last := by
  have step {left right : Nat} (reads : ReadsAt set.rules set.contexts left right)
      (consumer producer : Rule) (consumes : set.rules[left]? = some consumer)
      (produces : set.rules[right]? = some producer) : set.Reads consumer producer := by
    obtain ⟨apart, reader, writer, reading, writing, related⟩ := reads
    obtain rfl : reader = consumer := Option.some.inj (reading.symm.trans consumes)
    obtain rfl : writer = producer := Option.some.inj (writing.symm.trans produces)
    refine ⟨List.mem_of_getElem? consumes, List.mem_of_getElem? produces, ?_, related⟩
    -- Different positions hold different rules, because names are not repeated.
    rintro rfl
    have inside := (List.getElem?_eq_some_iff.mp consumes).1
    exact apart ((List.getElem?_inj inside distinct).mp (consumes.trans produces.symm))
  induction chain generalizing last with
  | single reads => exact .single (step reads first last starts finishes)
  | tail _ reads ih =>
    have found := List.getElem?_eq_getElem reads.consumer_lt
    exact (ih _ found).tail (step reads _ last found finishes)

/-- Reading has no cycle among rules exactly if it has none among positions. -/
theorem acyclic_iff (set : RuleSet) (distinct : set.rules.Nodup) :
    (∀ rule, ¬ TransGen set.Reads rule rule) ↔
      ∀ position, ¬ TransGen (ReadsAt set.rules set.contexts) position position := by
  constructor
  -- The first position of a cycle holds a rule, which then is on a cycle too.
  · intro acyclic position cycle
    obtain ⟨_, ⟨_, reader, _, found, _⟩, _⟩ := TransGen.head'_iff.mp cycle
    exact acyclic reader (transGen_reads set distinct cycle reader reader found found)
  · intro acyclic rule cycle
    obtain ⟨_, reads, _⟩ := TransGen.head'_iff.mp cycle
    obtain ⟨position, found⟩ := List.mem_iff_getElem?.mp reads.1
    exact acyclic position (transGen_readsAt set cycle position position found found)

/-- An order holds every rule of the set once. -/
theorem order_perm (set : RuleSet) (ordered : List Rule)
    (returned : set.graph.order = .ok ordered) : ordered.Perm set.rules := by
  obtain ⟨taken, scheduled, rfl⟩ := (RuleGraph.order_ok_iff _ _).mp returned
  have all := (RuleGraph.orderedPositions_perm set.rules set.contexts taken scheduled).filterMap
    (set.graph.rules[·]?)
  have whole : (RuleGraph.ofRules set.rules set.contexts).positions.filterMap
      (set.graph.rules[·]?) = set.rules := RuleGraph.rulesAt_positions set.graph
  rwa [whole] at all

/-- In an order, producers stand before their consumers. -/
theorem order_respects (set : RuleSet) (ordered : List Rule)
    (returned : set.graph.order = .ok ordered) (consumer producer : Rule)
    (reads : set.Reads consumer producer) (i j : Nat) (earlier : ordered[i]? = some producer)
    (later : ordered[j]? = some consumer) : i < j := by
  obtain ⟨_, scheduled, rfl⟩ := (RuleGraph.order_ok_iff _ _).mp returned
  obtain ⟨_, rfl⟩ := (RuleGraph.orderedPositions_ok_iff _ _).mp scheduled
  have inside : ∀ position ∈ set.graph.taken, position < set.rules.length :=
    RuleGraph.taken_lt set.rules set.contexts
  have distinct : set.graph.taken.Nodup := RuleGraph.taken_nodup set.rules set.contexts
  rw [RuleGraph.getElem?_rulesAt _ _ inside, Option.bind_eq_some_iff] at earlier later
  obtain ⟨writer, written, produces⟩ := earlier
  obtain ⟨reader, read, consumes⟩ := later
  obtain ⟨_, _, apart, related⟩ := reads
  -- The two rules are different, hence so are their positions.
  have positions : ReadsAt set.rules set.contexts reader writer := by
    refine ⟨?_, consumer, producer, consumes, produces, related⟩
    rintro rfl
    exact apart (Option.some.inj (consumes.symm.trans produces))
  -- Each position was taken once, so its index in the order is the place of its rule.
  have below : set.graph.taken.idxOf writer < set.graph.taken.idxOf reader :=
    (RuleGraph.taken_respects set.rules set.contexts reader writer (List.mem_of_getElem? read)
      positions).2
  obtain ⟨writtenIn, rfl⟩ := List.getElem?_eq_some_iff.mp written
  obtain ⟨readIn, rfl⟩ := List.getElem?_eq_some_iff.mp read
  rwa [distinct.idxOf_getElem, distinct.idxOf_getElem] at below

/-- A built rule set can be ordered exactly if its rules do not read each other in a circle. The
order is a permutation of the rules in which producers precede their consumers. -/
theorem order_topological (declarations : List Declaration) (set : RuleSet)
    (built : ofDeclarations declarations = .ok set) :
    ((∃ ordered, set.graph.order = .ok ordered) ↔ ∀ rule, ¬ TransGen set.Reads rule rule) ∧
    ∀ ordered, set.graph.order = .ok ordered → ordered.Perm set.rules ∧
      ∀ consumer producer, set.Reads consumer producer → ∀ i j : Nat,
        ordered[i]? = some producer → ordered[j]? = some consumer → i < j := by
  have valid := valid_of_ofDeclarations built
  refine ⟨?_, fun ordered returned =>
    ⟨order_perm set ordered returned, order_respects set ordered returned⟩⟩
  -- Rules are known by their positions, where the schedule either takes all or finds a cycle.
  rw [acyclic_iff set valid.rules_nodup, ← RuleGraph.exists_orderedPositions_iff]
  simp only [RuleGraph.order_ok_iff, exists_comm (α := List Rule), exists_and_left, exists_eq',
    and_true]
  rfl

/-- A rule that asserts the truth, for a set in which only reading matters. -/
def readingRule (name : String) (target : Attribute) (reads : List Attribute) : Rule :=
  { name, target, reads, payload := .assertion { expression := .literal (.bool true) } }

/-- Two contexts that inherit from each other and one of them from a name that nothing defines;
the rate reads the value through that name. -/
def circularContexts : RuleSet where
  rules := [readingRule "rate" ⟨"Policy", "rate"⟩ [⟨"Asset", "value"⟩],
    readingRule "note" ⟨"Policy", "note"⟩ [],
    readingRule "value" ⟨"Auto", "value"⟩ [⟨"Vehicle", "value"⟩]]
  contexts := [("Auto", { name := "Auto", ancestors := ["Vehicle"] }),
    ("Vehicle", { name := "Vehicle", ancestors := ["Auto", "Asset"] })]
  entryPoints := []

/-- The declarations that build a rule set. -/
def toDeclarations (set : RuleSet) : List Declaration :=
  set.contexts.map (fun entry => .context entry.2)
    ++ set.rules.map (fun rule => .rule { rule with payload := some rule.payload })
    ++ set.entryPoints.map (fun group => .entryPoint group.1 group.2)

/-- Contexts that inherit in a circle do not make their rules read in a circle. -/
theorem order_topological_circular_contexts :
    ofDeclarations circularContexts.toDeclarations = .ok circularContexts ∧
      (circularContexts.graph.order.map (·.map (·.name))) = .ok ["note", "value", "rate"] ∧
      ∀ rule, ¬ TransGen circularContexts.Reads rule rule := by
  have built : ofDeclarations circularContexts.toDeclarations = .ok circularContexts := rfl
  have names : (circularContexts.graph.order.map (·.map (·.name))) =
      .ok ["note", "value", "rate"] := by cbv
  refine ⟨built, names, (order_topological _ _ built).1.mp ?_⟩
  cases returned : circularContexts.graph.order with
  | error failure => simp [returned, Except.map] at names
  | ok ordered => exact ⟨ordered, rfl⟩

end RuleSet

end Rulebook

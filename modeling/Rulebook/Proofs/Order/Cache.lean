import Mathlib.Data.List.DropRight
import Mathlib.Data.List.Permutation
import Rulebook.Proofs.Dependency.Component
import Rulebook.Proofs.Order.History

/-!
# What an engine caches

The cache is told by what was returned. It holds one snapshot for each version that was ordered
since the engine was last cleared, the one that was returned for it first, and it is the only place
from which a snapshot is returned twice. Serial numbers are never used again, so a snapshot that was
returned stays what it is.
-/
namespace Rulebook

/-- What came of a call: the answer for the version that was asked for, or a cleared cache. -/
inductive EngineEvent where
  | ordered (version : Checksum) (answer : Except CycleError Snapshot)
  | cleared

namespace EngineEvent

def isOrdered : EngineEvent → Bool
  | ordered _ _ => true
  | cleared => false

/-- The snapshot that was returned, with the version that it was returned for. -/
def returned? : EngineEvent → Option (Checksum × Snapshot)
  | ordered version (.ok snapshot) => some (version, snapshot)
  | ordered _ (.error _) | cleared => none

/-- What was returned in the course of the events. -/
def returned (events : List EngineEvent) : List (Checksum × Snapshot) :=
  events.filterMap returned?

/-- The events behind the last clearing. -/
def recent (events : List EngineEvent) : List EngineEvent :=
  events.rtakeWhile isOrdered

section

variable (events : List EngineEvent) (version : Checksum)

theorem returned_append (more : List EngineEvent) :
    returned (events ++ more) = returned events ++ returned more :=
  List.filterMap_append

theorem returned_ok (snapshot : Snapshot) : returned (events ++ [ordered version (.ok snapshot)]) =
    returned events ++ [(version, snapshot)] :=
  returned_append events _

theorem returned_error (failure : CycleError) :
    returned (events ++ [ordered version (.error failure)]) = returned events :=
  (returned_append events _).trans (List.append_nil _)

theorem returned_cleared : returned (events ++ [cleared]) = returned events :=
  (returned_append events _).trans (List.append_nil _)

theorem recent_ordered (answer : Except CycleError Snapshot) :
    recent (events ++ [ordered version answer]) = recent events ++ [ordered version answer] :=
  List.rtakeWhile_concat_pos _ _ _ rfl

theorem recent_cleared : recent (events ++ [cleared]) = [] :=
  List.rtakeWhile_concat_neg _ _ _ Bool.false_ne_true

/-- Whatever was returned recently was returned. -/
theorem returned_recent_subset : returned (recent events) ⊆ returned events := by
  obtain ⟨front, split⟩ := List.rtakeWhile_suffix isOrdered events
  intro entry member
  rw [← split, returned_append]
  exact List.mem_append_right _ member

end

end EngineEvent

namespace OrderingEngine

open EngineEvent

/-- What comes of a call. -/
def eventOf (engine : OrderingEngine) : EngineCall → EngineEvent
  | .order set => .ordered set.checksum (engine.order set).1
  | .clear => .cleared

/-- What comes of calls, one after another. -/
def eventsFrom (engine : OrderingEngine) : List EngineCall → List EngineEvent
  | [] => []
  | call :: calls => engine.eventOf call :: eventsFrom (engine.perform call) calls

/-- What has come of all calls that an engine received. -/
def events (calls : List EngineCall) : List EngineEvent :=
  eventsFrom {} calls

/-- The events of further calls come behind those of the first ones. -/
theorem eventsFrom_append (engine : OrderingEngine) (calls more : List EngineCall) :
    eventsFrom engine (calls ++ more) =
      eventsFrom engine calls ++ eventsFrom (calls.foldl perform engine) more := by
  induction calls generalizing engine with
  | nil => rfl
  | cons call calls ih => exact congrArg (engine.eventOf call :: ·) (ih _)

theorem events_append (calls more : List EngineCall) :
    events (calls ++ more) = events calls ++ eventsFrom (afterCalls calls) more :=
  eventsFrom_append {} calls more

theorem afterCalls_concat (calls : List EngineCall) (call : EngineCall) :
    afterCalls (calls ++ [call]) = (afterCalls calls).perform call := by
  rw [afterCalls, List.foldl_append]
  rfl

/-- What an order call can do: return what is found, fail on a set whose order is not found, or make
a snapshot of it and keep that. -/
theorem order_cases (engine : OrderingEngine) (set : RuleSet) :
    (∃ snapshot, engine.find? set.checksum = some snapshot ∧
      engine.order set = (.ok snapshot, engine)) ∨
    (∃ failure, engine.order set = (.error failure, engine)) ∨
    ∃ order, engine.find? order.checksum = none ∧ order.checksum = set.checksum ∧
      RuleOrder.ofRuleSet set = .ok order ∧ engine.order set =
        (.ok ⟨engine.made, order⟩, ⟨⟨engine.made, order⟩ :: engine.cached, engine.made + 1⟩) := by
  cases found : engine.find? set.checksum with
  | some snapshot => exact .inl ⟨snapshot, rfl, order_of_found found⟩
  | none =>
    cases built : RuleOrder.ofRuleSet set with
    | error failure => exact .inr (.inl ⟨failure, order_of_failure found built⟩)
    | ok order =>
      have version := RuleOrder.ofRuleSet_checksum built
      exact .inr (.inr ⟨order, version ▸ found, version, rfl, order_of_built found built⟩)

/-- The cache is the record of what was returned since it was cleared, and serial numbers tell all
returned snapshots apart. -/
structure Records (engine : OrderingEngine) (events : List EngineEvent) : Prop where
  found : ∀ version, engine.find? version =
    ((returned (recent events)).find? (·.1 = version)).map (·.2)
  distinct : (engine.cached.map (·.order.checksum)).Nodup
  made : ∀ entry ∈ returned events, entry.2.serial < engine.made
  serials : ∀ entry ∈ returned events, ∀ other ∈ returned events,
    entry.2.serial = other.2.serial → entry.2 = other.2

/-- A version is found exactly if it is cached. -/
theorem find?_isSome_iff (engine : OrderingEngine) (version : Checksum) :
    (engine.find? version).isSome ↔ version ∈ engine.cached.map (·.order.checksum) := by
  simp [find?]

namespace Records

variable {engine : OrderingEngine} {events : List EngineEvent}

/-- Without calls there is neither an event nor a snapshot. -/
theorem start : Records {} [] where
  found _ := rfl
  distinct := List.nodup_nil
  made := List.forall_mem_nil _
  serials := List.forall_mem_nil _

/-- Clearing the cache starts the recent events anew. -/
theorem clear (records : Records engine events) : Records engine.clear (events ++ [.cleared]) where
  found _ := by
    rw [recent_cleared]
    rfl
  distinct := List.nodup_nil
  made := by
    rw [returned_cleared]
    exact records.made
  serials := by
    rw [returned_cleared]
    exact records.serials

/-- A failure is an event, but returns nothing. -/
theorem of_failure (records : Records engine events) (version : Checksum) (failure : CycleError) :
    Records engine (events ++ [.ordered version (.error failure)]) where
  found := by
    rw [recent_ordered, returned_error]
    exact records.found
  distinct := records.distinct
  made := by
    rw [returned_error]
    exact records.made
  serials := by
    rw [returned_error]
    exact records.serials

/-- What is found was returned for its version first. -/
theorem find?_returned (records : Records engine events) {version : Checksum} {snapshot : Snapshot}
    (found : engine.find? version = some snapshot) :
    (returned (recent events)).find? (·.1 = version) = some (version, snapshot) := by
  obtain ⟨⟨first, _⟩, earlier, rfl⟩ := Option.map_eq_some_iff.mp (records.found version ▸ found)
  have same : first = version := by simpa using List.find?_some earlier
  rw [earlier, same]

theorem mem_returned (records : Records engine events) {version : Checksum} {snapshot : Snapshot}
    (found : engine.find? version = some snapshot) : (version, snapshot) ∈ returned events :=
  returned_recent_subset events (List.mem_of_find?_eq_some (records.find?_returned found))

/-- A snapshot that is found is returned once more. -/
theorem of_found (records : Records engine events) {version : Checksum} {snapshot : Snapshot}
    (found : engine.find? version = some snapshot) :
    Records engine (events ++ [.ordered version (.ok snapshot)]) where
  found other := by
    rw [recent_ordered, returned_ok, List.find?_append, records.found other]
    by_cases same : version = other
    · rw [← same, records.find?_returned found]
      rfl
    · simp [same]
  distinct := records.distinct
  made := by
    rw [returned_ok, List.forall_mem_append, List.forall_mem_singleton]
    exact ⟨records.made, records.made _ (records.mem_returned found)⟩
  serials := by
    -- The snapshot was returned before, so it adds no serial number.
    have again (entry : Checksum × Snapshot)
        (member : entry ∈ returned events ++ [(version, snapshot)]) :
        ∃ earlier ∈ returned events, earlier.2 = entry.2 := by
      rcases List.mem_append.mp member with earlier | last
      · exact ⟨entry, earlier, rfl⟩
      · exact ⟨_, records.mem_returned found, by rw [List.mem_singleton.mp last]⟩
    rw [returned_ok]
    intro entry member other member' same
    obtain ⟨earlier, earlierIn, equal⟩ := again entry member
    obtain ⟨earlier', earlierIn', equal'⟩ := again other member'
    rw [← equal, ← equal'] at same ⊢
    exact records.serials _ earlierIn _ earlierIn' same

/-- A snapshot that is made gets a serial number that none has that was returned. -/
theorem of_built (records : Records engine events) {order : RuleOrder}
    (absent : engine.find? order.checksum = none) :
    Records ⟨⟨engine.made, order⟩ :: engine.cached, engine.made + 1⟩
      (events ++ [.ordered order.checksum (.ok ⟨engine.made, order⟩)]) where
  found version := by
    rw [recent_ordered, returned_ok, List.find?_append, find?_push]
    by_cases same : order.checksum = version
    · subst same
      have before := records.found order.checksum
      rw [absent, eq_comm, Option.map_eq_none_iff] at before
      simp [before]
    · have before : find? ⟨engine.cached, engine.made + 1⟩ version = _ := records.found version
      rw [if_neg same, before]
      simp [same]
  distinct := by
    rw [List.map_cons, List.nodup_cons, ← find?_isSome_iff, absent]
    exact ⟨nofun, records.distinct⟩
  made := by
    rw [returned_ok, List.forall_mem_append, List.forall_mem_singleton]
    exact ⟨fun entry member => Nat.lt_succ_of_lt (records.made entry member), Nat.lt_succ_self _⟩
  serials := by
    rw [returned_ok]
    intro entry member other member' same
    -- Either both entries were returned before, or one is the new one, the number of which is
    -- greater than all others.
    rcases List.mem_append.mp member with earlier | last <;>
      rcases List.mem_append.mp member' with earlier' | last'
    · exact records.serials entry earlier other earlier' same
    · have below := records.made entry earlier
      rw [same, List.mem_singleton.mp last'] at below
      exact absurd below (Nat.lt_irrefl _)
    · have below := records.made other earlier'
      rw [← same, List.mem_singleton.mp last] at below
      exact absurd below (Nat.lt_irrefl _)
    · rw [List.mem_singleton.mp last, List.mem_singleton.mp last']

/-- One call keeps the record. -/
theorem perform (records : Records engine events) (call : EngineCall) :
    Records (engine.perform call) (events ++ [engine.eventOf call]) := by
  cases call with
  | clear => exact records.clear
  | order set =>
    rw [OrderingEngine.perform, eventOf]
    rcases order_cases engine set with ⟨snapshot, found, answer⟩ | ⟨failure, answer⟩ |
      ⟨order, absent, version, -, answer⟩
    · rw [answer]
      exact records.of_found found
    · rw [answer]
      exact records.of_failure _ failure
    · rw [answer, ← version]
      exact records.of_built absent

/-- And so does a whole history. -/
theorem afterCalls (calls : List EngineCall) :
    Records (afterCalls calls) (OrderingEngine.events calls) := by
  induction calls using List.reverseRecOn with
  | nil => exact start
  | append_singleton calls call ih =>
    rw [afterCalls_concat, events_append]
    exact ih.perform call

/-- The cached versions are those for which something was returned. -/
theorem mem_cached_iff (records : Records engine events) (version : Checksum) :
    version ∈ engine.cached.map (·.order.checksum) ↔
      version ∈ (returned (recent events)).map (·.1) := by
  rw [← find?_isSome_iff, records.found]
  simp

/-- The cache holds as many snapshots as versions were returned recently. -/
theorem size_eq (records : Records engine events) :
    engine.size = ((returned (recent events)).map (·.1)).dedup.length := by
  have same := (List.perm_ext_iff_of_nodup records.distinct (List.nodup_dedup _)).mpr
    fun version => (records.mem_cached_iff version).trans List.mem_dedup.symm
  rw [← same.length_eq, List.length_map]
  rfl

end Records

/-- What a successful call returns is cached. -/
theorem find?_order_ok {engine : OrderingEngine} {set : RuleSet} {snapshot : Snapshot}
    (succeeded : (engine.order set).1 = .ok snapshot) :
    (engine.order set).2.find? set.checksum = some snapshot := by
  rcases order_cases engine set with ⟨_, found, answer⟩ | ⟨_, answer⟩ | ⟨_, _, version, -, answer⟩
  · rw [answer] at succeeded ⊢
    cases succeeded
    exact found
  · rw [answer] at succeeded
    cases succeeded
  · rw [answer] at succeeded ⊢
    cases succeeded
    rw [find?_push, if_pos version]

/-- A failing call leaves the engine as it is. -/
theorem order_eq_of_error {engine : OrderingEngine} {set : RuleSet} {failure : CycleError}
    (failed : (engine.order set).1 = .error failure) : (engine.order set).2 = engine := by
  rcases order_cases engine set with ⟨_, _, answer⟩ | ⟨_, answer⟩ | ⟨_, _, _, _, answer⟩
  · rw [answer]
  · rw [answer]
  · rw [answer] at failed
    cases failed

namespace Records

variable {engine : OrderingEngine} {events : List EngineEvent}

/-- A version for which nothing was returned is ordered anew. -/
theorem built_of_new (records : Records engine events) {set : RuleSet} {snapshot : Snapshot}
    (succeeded : (engine.order set).1 = .ok snapshot)
    (new : set.checksum ∉ (returned (recent events)).map (·.1)) :
    RuleOrder.ofRuleSet set = .ok snapshot.order ∧
      ∀ entry ∈ returned events, entry.2.serial ≠ snapshot.serial := by
  rcases order_cases engine set with ⟨_, found, _⟩ | ⟨_, answer⟩ | ⟨order, _, _, built, answer⟩
  · rw [← records.mem_cached_iff, ← find?_isSome_iff, found] at new
    exact absurd rfl new
  · rw [answer] at succeeded
    cases succeeded
  · rw [answer] at succeeded
    cases succeeded
    exact ⟨built, fun entry member => Nat.ne_of_lt (records.made entry member)⟩

/-- Everything that is cached was returned. -/
theorem mem_returned_of_cached (records : Records engine events) {snapshot : Snapshot}
    (cached : snapshot ∈ engine.cached) : snapshot ∈ (returned events).map (·.2) := by
  have version : snapshot.order.checksum ∈ engine.cached.map (·.order.checksum) :=
    List.mem_map_of_mem cached
  obtain ⟨other, found⟩ := Option.isSome_iff_exists.mp ((find?_isSome_iff engine _).mpr version)
  have same : other.order.checksum = snapshot.order.checksum := by simpa using List.find?_some found
  -- No version is cached twice.
  obtain rfl : other = snapshot :=
    List.inj_on_of_nodup_map records.distinct (List.mem_of_find?_eq_some found) cached same
  exact List.mem_map_of_mem (records.mem_returned found)

end Records

/-- The cache of an engine is told by what it returned since it was last cleared.

* It holds as many orders as there are versions among the successful calls.
* A successful call returns the snapshot that was returned for its version first. Where no call has
  succeeded for it, the snapshot is a new one, of the order of the set that is asked for, and it is
  cached.
* A failing call leaves the engine as it is.
* Whatever is called later, what then has the serial number of a returned snapshot, be it cached or
  returned, is that same snapshot. -/
theorem cache_follows_history (calls : List EngineCall) :
    (afterCalls calls).size = ((returned (recent (events calls))).map (·.1)).dedup.length ∧
    (∀ set snapshot, ((afterCalls calls).order set).1 = .ok snapshot →
      (returned (recent (events (calls ++ [.order set])))).find? (·.1 = set.checksum) =
          some (set.checksum, snapshot) ∧
        (afterCalls (calls ++ [.order set])).find? set.checksum = some snapshot ∧
        (set.checksum ∉ (returned (recent (events calls))).map (·.1) →
          RuleOrder.ofRuleSet set = .ok snapshot.order ∧
            ∀ entry ∈ returned (events calls), entry.2.serial ≠ snapshot.serial)) ∧
    (∀ set failure, ((afterCalls calls).order set).1 = .error failure →
      ((afterCalls calls).order set).2 = afterCalls calls) ∧
    ∀ more, ∀ entry ∈ returned (events calls), ∀ later,
      later ∈ (afterCalls (calls ++ more)).cached ∨
          later ∈ (returned (events (calls ++ more))).map (·.2) →
        later.serial = entry.2.serial → later = entry.2 := by
  have records := Records.afterCalls calls
  refine ⟨records.size_eq, fun set snapshot succeeded => ?_, fun set failure => order_eq_of_error,
    fun more entry member later held same => ?_⟩
  · have kept : (afterCalls (calls ++ [.order set])).find? set.checksum = some snapshot := by
      rw [afterCalls_concat]
      exact find?_order_ok succeeded
    exact ⟨(Records.afterCalls _).find?_returned kept, kept, records.built_of_new succeeded⟩
  -- The record of the longer history tells snapshots apart by serial numbers.
  · have further := Records.afterCalls (calls ++ more)
    have earlier : entry ∈ returned (events (calls ++ more)) := by
      rw [events_append, returned_append]
      exact List.mem_append_left _ member
    have returned : later ∈ (returned (events (calls ++ more))).map (·.2) :=
      held.elim further.mem_returned_of_cached id
    obtain ⟨other, otherIn, rfl⟩ := List.mem_map.mp returned
    exact further.serials _ otherIn _ earlier same

/-- A version that is known under other entry points is answered for with its first snapshot. Once
the engine is cleared, cyclic rules fail and change nothing, and the version gets a new snapshot. -/
theorem cache_follows_history_of_taxed :
    let known := taxed []
    let asked := taxed [("Quote", ["tax"])]
    (∃ first again, ((afterCalls []).order known).1 = .ok first ∧
        ((afterCalls [.order known]).order asked).1 = .ok again ∧
        (returned (recent (events [.order known, .order asked]))).find?
          (·.1 = asked.checksum) = some (asked.checksum, again) ∧ again = first) ∧
      (∃ failure, ((afterCalls [.order known, .clear]).order .interleavedCycles).1 =
          .error failure ∧
        ((afterCalls [.order known, .clear]).order .interleavedCycles).2 =
          afterCalls [.order known, .clear]) ∧
      ∃ anew, ((afterCalls [.order known, .clear]).order known).1 = .ok anew ∧
        ∀ entry ∈ returned (events [.order known, .clear]), entry.2.serial ≠ anew.serial := by
  intro known asked
  have built : RuleOrder.ofRuleSet known = .ok (.ofSequence known known.rules.reverse) :=
    ofRuleSet_taxed []
  have fresh : (({} : OrderingEngine).order known).1 =
      .ok ⟨0, .ofSequence known known.rules.reverse⟩ := congrArg Prod.fst (order_of_built rfl built)
  have hit : ((afterCalls [.order known]).order asked).1 =
      .ok ⟨0, .ofSequence known known.rules.reverse⟩ := by
    -- Both sets have the same bytes, so no digest has to be computed.
    have version : asked.checksum = known.checksum := rfl
    have found := find?_order_ok fresh
    rw [← version] at found
    exact congrArg Prod.fst (order_of_found found)
  refine ⟨?_, ?_, ?_⟩
  · obtain ⟨-, serves, -, keeps⟩ := cache_follows_history [.order known]
    have returnedFirst : (known.checksum, ⟨0, .ofSequence known known.rules.reverse⟩) ∈
        returned (events [.order known]) := by
      have event : events [.order known] =
          [.ordered known.checksum (.ok ⟨0, .ofSequence known known.rules.reverse⟩)] := by
        rw [← fresh]
        rfl
      rw [event]
      exact List.mem_singleton_self _
    have returnedAgain := List.mem_of_find?_eq_some (serves asked _ hit).1
    exact ⟨_, _, fresh, hit, (serves asked _ hit).1, keeps [.order asked] _ returnedFirst _
      (.inr (List.mem_map_of_mem (returned_recent_subset _ returnedAgain))) rfl⟩
  · obtain ⟨failure, refused⟩ :
        ∃ failure, RuleOrder.ofRuleSet .interleavedCycles = .error failure := by
      -- Two of the rules wait for each other, so the schedule does not take them.
      have stuck : RuleSet.interleavedCycles.graph.taken.length ≠
          RuleSet.interleavedCycles.graph.rules.length := by cbv
      cases refused : RuleSet.interleavedCycles.graph.order with
      | error failure => exact ⟨failure, by rw [RuleOrder.ofRuleSet_eq, refused]; rfl⟩
      | ok rules =>
        obtain ⟨taken, scheduled, _⟩ := (RuleGraph.order_ok_iff _ _).mp refused
        exact absurd ((RuleGraph.orderedPositions_ok_iff _ _).mp scheduled).1 stuck
    have failed : ((afterCalls [.order known, .clear]).order .interleavedCycles).1 =
        .error failure := congrArg Prod.fst (order_of_failure rfl refused)
    exact ⟨failure, failed, (cache_follows_history [.order known, .clear]).2.2.1 _ _ failed⟩
  · have empty : (afterCalls [.order known, .clear]).find? known.checksum = none := rfl
    have rebuilt := congrArg Prod.fst (order_of_built empty built)
    refine ⟨_, rebuilt, ?_⟩
    have forgotten : recent (events [.order known, .clear]) = [] :=
      recent_cleared (events [.order known])
    exact (((cache_follows_history [.order known, .clear]).2.1 known _ rebuilt).2.2
      (by simp [forgotten, returned])).2

end OrderingEngine

end Rulebook

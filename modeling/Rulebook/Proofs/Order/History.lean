import Mathlib.Data.List.Find
import Rulebook.Order.Engine
import Rulebook.Proofs.Order.Content

/-!
# What an engine answers

Whatever calls an engine has received, it orders a set like one that has received none, as far as
the rules and the edges go. The entry points are those of the first set of the same version, so
they are the right ones only if that set declares them, too.
-/
namespace Rulebook

/-- A call that an engine receives. -/
inductive EngineCall where
  | order (set : RuleSet)
  | clear

namespace EngineCall

/-- The sets that an engine was asked to order. -/
def orderedSets (calls : List EngineCall) : List RuleSet :=
  calls.filterMap fun
    | order set => some set
    | clear => none

/-- The sets that count after a call. -/
def remember (sets : List RuleSet) : EngineCall → List RuleSet
  | order set => sets ++ [set]
  | clear => []

/-- The sets that an engine was asked to order since it was last cleared. -/
def recentSets (calls : List EngineCall) : List RuleSet :=
  calls.foldl remember []

/-- The set whose order answers for a set after these calls: the first recent one of its bytes. -/
def answering (calls : List EngineCall) (set : RuleSet) : RuleSet :=
  ((recentSets calls).find? (·.bytes = set.bytes)).getD set

theorem orderedSets_cons (call : EngineCall) (calls : List EngineCall) :
    orderedSets (call :: calls) = orderedSets [call] ++ orderedSets calls := by
  cases call with
  | order set => rfl
  | clear => rfl

/-- Only sets that an engine was asked for count. -/
theorem remember_subset {sets : List RuleSet} (recent : List RuleSet) (call : EngineCall)
    (inside : recent ⊆ sets) (asked : orderedSets [call] ⊆ sets) : remember recent call ⊆ sets := by
  cases call with
  | order set => exact List.append_subset.mpr ⟨inside, asked⟩
  | clear => exact List.nil_subset sets

/-- The sets that count are among those that were ordered. -/
theorem recentSets_subset (calls : List EngineCall) : recentSets calls ⊆ orderedSets calls := by
  -- The fold starts with no sets; for the induction it may start with any that were asked for.
  have run {sets : List RuleSet} (recent : List RuleSet) (inside : recent ⊆ sets)
      (asked : orderedSets calls ⊆ sets) : calls.foldl remember recent ⊆ sets := by
    induction calls generalizing recent with
    | nil => exact inside
    | cons call calls ih =>
      rw [orderedSets_cons, List.append_subset] at asked
      exact ih _ (remember_subset recent call inside asked.1) asked.2
  exact run [] (List.nil_subset _) (List.Subset.refl _)

/-- The set that answers was asked for, or is the set itself, and has the same bytes. -/
theorem answering_spec (calls : List EngineCall) (set : RuleSet) :
    answering calls set ∈ set :: orderedSets calls ∧ (answering calls set).bytes = set.bytes := by
  unfold answering
  cases first : (recentSets calls).find? (·.bytes = set.bytes) with
  | none => exact ⟨List.mem_cons_self, rfl⟩
  | some source =>
    have asked := recentSets_subset calls (List.mem_of_find?_eq_some first)
    exact ⟨List.mem_cons_of_mem _ asked, by simpa using List.find?_some first⟩

end EngineCall

/-- Built sets whose lengths fit into eight bytes and of which no two different contents have one
digest. -/
structure Versioned (sets : List RuleSet) : Prop where
  built : ∀ set ∈ sets, ∃ declarations, RuleSet.ofDeclarations declarations = .ok set
  fits : ∀ set ∈ sets, set.Fits
  distinct : ∀ left ∈ sets, ∀ right ∈ sets,
    Blake3.digest left.bytes = Blake3.digest right.bytes → left.bytes = right.bytes

namespace Versioned

variable {sets : List RuleSet} (versions : Versioned sets) {left right : RuleSet}

include versions

theorem valid (member : left ∈ sets) : left.Valid := by
  obtain ⟨declarations, built⟩ := versions.built left member
  exact RuleSet.valid_of_ofDeclarations built

/-- Among versioned sets, checksums tell apart what bytes do. -/
theorem checksum_eq_iff (leftIn : left ∈ sets) (rightIn : right ∈ sets) :
    left.checksum = right.checksum ↔ left.bytes = right.bytes := by
  constructor
  · intro equal
    exact versions.distinct left leftIn right rightIn (congrArg Checksum.bytes equal)
  · intro equal
    rw [RuleSet.checksum, equal, ← RuleSet.checksum]

/-- Versioned sets with equal bytes have the same content. -/
theorem sameContent (leftIn : left ∈ sets) (rightIn : right ∈ sets)
    (equal : left.bytes = right.bytes) : left.SameContent right :=
  RuleSet.sameContent_of_bytes left right (versions.fits left leftIn)
    (versions.fits right rightIn) equal

/-- Versioned sets with equal bytes have the same orders, entry points apart. -/
theorem ofRuleSet_sameRules (leftIn : left ∈ sets) (rightIn : right ∈ sets)
    (equal : left.bytes = right.bytes) {order : RuleOrder}
    (built : RuleOrder.ofRuleSet left = .ok order) :
    ∃ other, RuleOrder.ofRuleSet right = .ok other ∧ order.SameRules other :=
  RuleOrder.ofRuleSet_sameRules (versions.sameContent leftIn rightIn equal)
    (versions.valid leftIn) (versions.valid rightIn) built

end Versioned

namespace OrderingEngine

/-- The engine after a call. -/
def perform (engine : OrderingEngine) : EngineCall → OrderingEngine
  | .order set => (engine.order set).2
  | .clear => engine.clear

/-- An engine after the calls that it received. -/
def afterCalls (calls : List EngineCall) : OrderingEngine :=
  calls.foldl perform {}

/-- The engine holds, for each version, the order of the first of the sets that has it. -/
def Holds (engine : OrderingEngine) (sets : List RuleSet) : Prop :=
  ∀ checksum, (engine.find? checksum).map (·.order) =
    (sets.find? (·.checksum = checksum)).bind fun set => (RuleOrder.ofRuleSet set).toOption

/-- A snapshot that is found is returned. -/
theorem order_of_found {engine : OrderingEngine} {set : RuleSet} {snapshot : Snapshot}
    (found : engine.find? set.checksum = some snapshot) :
    engine.order set = (.ok snapshot, engine) := by
  unfold order
  rw [found]

/-- A failure is passed on and not kept. -/
theorem order_of_failure {engine : OrderingEngine} {set : RuleSet} {failure : CycleError}
    (absent : engine.find? set.checksum = none)
    (failed : RuleOrder.ofRuleSet set = .error failure) :
    engine.order set = (.error failure, engine) := by
  unfold order
  rw [absent, failed]

/-- A new order is kept in a new snapshot. -/
theorem order_of_built {engine : OrderingEngine} {set : RuleSet} {order : RuleOrder}
    (absent : engine.find? set.checksum = none) (built : RuleOrder.ofRuleSet set = .ok order) :
    engine.order set = (.ok ⟨engine.made, order⟩,
      ⟨⟨engine.made, order⟩ :: engine.cached, engine.made + 1⟩) := by
  unfold OrderingEngine.order
  rw [absent, built]

/-- A new snapshot is found before older ones. -/
theorem find?_push (snapshot : Snapshot) (cached : List Snapshot) (made : Nat)
    (checksum : Checksum) : find? ⟨snapshot :: cached, made⟩ checksum =
      if snapshot.order.checksum = checksum then some snapshot
      else find? ⟨cached, made⟩ checksum := by
  unfold find?
  rw [List.find?_cons]
  split <;> simp_all

/-- A cleared engine holds nothing. -/
theorem holds_clear (engine : OrderingEngine) : engine.clear.Holds [] := by
  intro checksum
  rfl

/-- Ordering a set changes nothing for other versions. -/
theorem find?_order_other (engine : OrderingEngine) (set : RuleSet) {checksum : Checksum}
    (other : set.checksum ≠ checksum) :
    (engine.order set).2.find? checksum = engine.find? checksum := by
  cases found : engine.find? set.checksum with
  | some snapshot => rw [order_of_found found]
  | none =>
    cases built : RuleOrder.ofRuleSet set with
    | error failure => rw [order_of_failure found built]
    | ok order =>
      have apart : order.checksum ≠ checksum := by rwa [RuleOrder.ofRuleSet_checksum built]
      -- The new snapshot is found under another checksum only.
      rw [order_of_built found built, find?_push, if_neg apart]
      rfl

section

variable {sets : List RuleSet} (versions : Versioned sets)

include versions

/-- Ordering a set makes it count, behind the sets that counted before. -/
theorem holds_order (engine : OrderingEngine) (recent : List RuleSet) (inside : recent ⊆ sets)
    (set : RuleSet) (member : set ∈ sets) (holds : engine.Holds recent) :
    (engine.order set).2.Holds (recent ++ [set]) := by
  intro checksum
  rw [List.find?_append]
  -- Only the version that is asked for can change.
  by_cases asked : set.checksum = checksum
  · subst asked
    have held := holds set.checksum
    cases found : engine.find? set.checksum with
    | some snapshot =>
      rw [order_of_found found, held]
      cases first : recent.find? (·.checksum = set.checksum) with
      | some source => rfl
      | none => simp [found, first] at held
    | none =>
      cases built : RuleOrder.ofRuleSet set with
      | error failure =>
        rw [order_of_failure found built, held]
        cases first : recent.find? (·.checksum = set.checksum) with
        | some source => rfl
        | none => simp [built, Except.toOption]
      | ok order =>
        rw [order_of_built found built, find?_push,
          if_pos (RuleOrder.ofRuleSet_checksum built)]
        cases first : recent.find? (·.checksum = set.checksum) with
        | none => simp [built, Except.toOption]
        | some source =>
          -- A recent set of this version could be ordered as well, and would be held.
          have sourceIn := inside (List.mem_of_find?_eq_some first)
          have version : source.checksum = set.checksum := by simpa using List.find?_some first
          have same := (versions.checksum_eq_iff member sourceIn).mp version.symm
          obtain ⟨other, ordered, _⟩ := versions.ofRuleSet_sameRules member sourceIn same built
          simp [found, first, ordered, Except.toOption] at held
  · rw [find?_order_other engine set asked, holds checksum]
    simp [asked]

/-- Every call keeps the cache in step with the sets that count. -/
theorem holds_perform (engine : OrderingEngine) (recent : List RuleSet) (inside : recent ⊆ sets)
    (call : EngineCall) (asked : EngineCall.orderedSets [call] ⊆ sets)
    (holds : engine.Holds recent) :
    (engine.perform call).Holds (EngineCall.remember recent call) := by
  cases call with
  | order set =>
    exact holds_order versions engine recent inside set (asked List.mem_cons_self) holds
  | clear => exact holds_clear engine

/-- Whatever calls an engine has received, it holds the orders of the sets that count. -/
theorem holds_afterCalls (calls : List EngineCall) (asked : EngineCall.orderedSets calls ⊆ sets) :
    (afterCalls calls).Holds (EngineCall.recentSets calls) := by
  -- For the induction the engine may already hold the orders of any sets.
  have run (engine : OrderingEngine) (recent : List RuleSet) (inside : recent ⊆ sets)
      (holds : engine.Holds recent) :
      (calls.foldl perform engine).Holds (calls.foldl EngineCall.remember recent) := by
    induction calls generalizing engine recent with
    | nil => exact holds
    | cons call calls ih =>
      rw [EngineCall.orderedSets_cons, List.append_subset] at asked
      apply ih asked.2
      · exact EngineCall.remember_subset recent call inside asked.1
      · exact holds_perform versions engine recent inside call asked.1 holds
  exact run {} [] (List.nil_subset _) (fun checksum => rfl)

end

section

variable {calls : List EngineCall} {set : RuleSet}
  (versions : Versioned (set :: EngineCall.orderedSets calls))

include versions

/-- What is found for a set is the order of the first recent set with its bytes. -/
theorem find?_afterCalls : ((afterCalls calls).find? set.checksum).map (·.order) =
    ((EngineCall.recentSets calls).find? (·.bytes = set.bytes)).bind fun source =>
      (RuleOrder.ofRuleSet source).toOption := by
  have asked := List.subset_cons_self set (EngineCall.orderedSets calls)
  rw [holds_afterCalls versions calls asked set.checksum]
  -- Among the sets of the history, checksums tell apart what bytes do.
  congr 1
  apply List.find?_congr
  intro source member
  have sourceIn := asked (EngineCall.recentSets_subset calls member)
  simp [versions.checksum_eq_iff sourceIn List.mem_cons_self]

/-- A snapshot that is found has the order of the set that answers. -/
theorem ofRuleSet_answering {snapshot : Snapshot}
    (found : (afterCalls calls).find? set.checksum = some snapshot) :
    RuleOrder.ofRuleSet (EngineCall.answering calls set) = .ok snapshot.order := by
  have held := find?_afterCalls versions
  rw [found, Option.map_some, eq_comm, Option.bind_eq_some_iff] at held
  obtain ⟨source, first, ordered⟩ := held
  rw [EngineCall.answering, first, Option.getD_some]
  cases built : RuleOrder.ofRuleSet source with
  | error failure => simp [built, Except.toOption] at ordered
  | ok order =>
    rw [built] at ordered
    exact congrArg Except.ok (Option.some.inj ordered)

/-- A set for which nothing is found, and which has an order, answers for itself. -/
theorem answering_eq_self {fresh : RuleOrder}
    (absent : (afterCalls calls).find? set.checksum = none)
    (built : RuleOrder.ofRuleSet set = .ok fresh) : EngineCall.answering calls set = set := by
  have held := find?_afterCalls versions
  unfold EngineCall.answering
  cases first : (EngineCall.recentSets calls).find? (·.bytes = set.bytes) with
  | none => rfl
  | some source =>
    -- An earlier set of these bytes could be ordered too, so its order would be held.
    have sourceIn := List.mem_cons_of_mem set
      (EngineCall.recentSets_subset calls (List.mem_of_find?_eq_some first))
    have same : source.bytes = set.bytes := by simpa using List.find?_some first
    obtain ⟨order, ordered, _⟩ :=
      versions.ofRuleSet_sameRules List.mem_cons_self sourceIn same.symm built
    simp [absent, first, ordered, Except.toOption] at held

/-- A set without an order fails after any calls. -/
theorem order_afterCalls_of_error {failure : CycleError}
    (failed : RuleOrder.ofRuleSet set = .error failure) :
    ((afterCalls calls).order set).1 = .error failure := by
  cases found : (afterCalls calls).find? set.checksum with
  | none => rw [order_of_failure found failed]
  | some snapshot =>
    -- What is held is the order of a set of the same content, which could be ordered.
    obtain ⟨answeringIn, same⟩ := EngineCall.answering_spec calls set
    obtain ⟨order, built, _⟩ := versions.ofRuleSet_sameRules answeringIn List.mem_cons_self same
      (ofRuleSet_answering versions found)
    rw [failed] at built
    cases built

/-- A set with an order is answered with that of the set that answers for it. -/
theorem order_afterCalls_of_ok {fresh : RuleOrder} (built : RuleOrder.ofRuleSet set = .ok fresh) :
    ∃ snapshot, ((afterCalls calls).order set).1 = .ok snapshot ∧
      RuleOrder.ofRuleSet (EngineCall.answering calls set) = .ok snapshot.order := by
  cases found : (afterCalls calls).find? set.checksum with
  | some snapshot =>
    rw [order_of_found found]
    exact ⟨snapshot, rfl, ofRuleSet_answering versions found⟩
  | none =>
    rw [order_of_built found built, answering_eq_self versions found built]
    exact ⟨_, rfl, built⟩

end

/-- Whatever an engine was asked before, it fails on a set exactly like an order made afresh.
Otherwise it returns the same rules with as many edges; its entry points are right exactly if the
set that answers declares the same ones. -/
theorem order_after_any_calls (calls : List EngineCall) (set : RuleSet)
    (versions : Versioned (set :: EngineCall.orderedSets calls)) :
    (∀ failure, ((afterCalls calls).order set).1 = .error failure ↔
      RuleOrder.ofRuleSet set = .error failure) ∧
    ∀ fresh, RuleOrder.ofRuleSet set = .ok fresh → ∃ snapshot,
      ((afterCalls calls).order set).1 = .ok snapshot ∧ snapshot.order.SameRules fresh ∧
        (snapshot.order.SameEntryPoints fresh ↔
          (EngineCall.answering calls set).SameGroups set) := by
  constructor
  · intro failure
    constructor
    · intro failed
      cases built : RuleOrder.ofRuleSet set with
      | error fault =>
        have refused := order_afterCalls_of_error versions built
        rw [failed] at refused
        exact congrArg Except.error (Except.error.inj refused).symm
      | ok fresh =>
        -- A set that has an order does not fail.
        obtain ⟨snapshot, returned, _⟩ := order_afterCalls_of_ok versions built
        rw [failed] at returned
        cases returned
    · exact order_afterCalls_of_error versions
  · intro fresh built
    obtain ⟨snapshot, returned, answered⟩ := order_afterCalls_of_ok versions built
    obtain ⟨answeringIn, same⟩ := EngineCall.answering_spec calls set
    obtain ⟨other, rebuilt, alike⟩ :=
      versions.ofRuleSet_sameRules answeringIn List.mem_cons_self same answered
    obtain rfl : other = fresh := Except.ok.inj (rebuilt.symm.trans built)
    exact ⟨snapshot, returned, alike, RuleOrder.sameEntryPoints_iff (versions.valid answeringIn)
      (versions.valid List.mem_cons_self) answered built alike⟩

/-- A tax on a premium, under the given entry points. -/
def taxed (entryPoints : Table (List String)) : RuleSet where
  rules := [RuleSet.readingRule "tax" ⟨"Policy", "tax"⟩ [⟨"Policy", "premium"⟩],
    RuleSet.readingRule "premium" ⟨"Policy", "premium"⟩ []]
  contexts := []
  entryPoints := entryPoints

/-- A rule that asserts the truth fits if its texts do. -/
theorem readingRule_fits {name : String} {target : Attribute} {reads : List Attribute}
    (nameFits : Bytes.TextFits name) (targetFits : target.Fits)
    (readsFit : reads.length < Bytes.countLimit ∧ ∀ read ∈ reads, read.Fits) :
    (RuleSet.readingRule name target reads).Fits where
  name := nameFits
  target := targetFits
  reads := readsFit
  condition := nofun
  payload := by
    have references : (⟨.literal (.bool true), []⟩ : Formula).references = [] := rfl
    simp only [RuleSet.readingRule, Payload.Fits, Formula.Fits, references, Expression.Fits,
      Value.Fits]
    decide
  message := nofun

/-- The two rules have short texts. -/
theorem taxed_fits (entryPoints : Table (List String)) : (taxed entryPoints).Fits where
  rules := by
    have taxFits : (RuleSet.readingRule "tax" ⟨"Policy", "tax"⟩ [⟨"Policy", "premium"⟩]).Fits := by
      apply readingRule_fits (by decide) ⟨by decide, by decide⟩
      simp only [List.forall_mem_singleton, Attribute.Fits]
      decide
    have premiumFits : (RuleSet.readingRule "premium" ⟨"Policy", "premium"⟩ []).Fits :=
      readingRule_fits (by decide) ⟨by decide, by decide⟩ ⟨by decide, List.forall_mem_nil _⟩
    simp only [taxed, List.forall_mem_cons]
    exact ⟨(by decide : 2 < Bytes.countLimit), taxFits, premiumFits, List.forall_mem_nil _⟩
  contexts := ⟨(by decide : 0 < Bytes.countLimit), List.forall_mem_nil _⟩

/-- The tax reads the premium, so their order is reversed. -/
theorem ofRuleSet_taxed (entryPoints : Table (List String)) :
    RuleOrder.ofRuleSet (taxed entryPoints) =
      .ok (.ofSequence (taxed entryPoints) (taxed entryPoints).rules.reverse) := by
  have returned : (taxed entryPoints).graph.order = .ok (taxed entryPoints).rules.reverse := by cbv
  rw [RuleOrder.ofRuleSet_eq, returned]
  rfl

/-- A cleared engine answers for the set that is asked for next. -/
theorem order_after_any_calls_of_cleared : ∃ snapshot,
    ((afterCalls [.order (taxed []), .clear]).order (taxed [("Quote", ["tax"])])).1 = .ok snapshot ∧
      snapshot.order.SameEntryPoints
        (.ofSequence (taxed [("Quote", ["tax"])]) (taxed [("Quote", ["tax"])]).rules.reverse) := by
  have versions : Versioned (taxed [("Quote", ["tax"])] ::
      EngineCall.orderedSets [.order (taxed []), .clear]) := by
    have each : ∀ set ∈ taxed [("Quote", ["tax"])] ::
        EngineCall.orderedSets [.order (taxed []), .clear],
        set = taxed [("Quote", ["tax"])] ∨ set = taxed [] := by
      simp [EngineCall.orderedSets]
    constructor
    · intro set member
      rcases each set member with rfl | rfl
      · exact ⟨(taxed [("Quote", ["tax"])]).toDeclarations, rfl⟩
      · exact ⟨(taxed []).toDeclarations, rfl⟩
    · intro set member
      rcases each set member with rfl | rfl <;> exact taxed_fits _
    · -- Both have the same bytes, so no digest has to be computed.
      intro left leftIn right rightIn _
      rcases each left leftIn with rfl | rfl <;> rcases each right rightIn with rfl | rfl <;> rfl
  obtain ⟨snapshot, returned, _, points⟩ :=
    (order_after_any_calls _ _ versions).2 _ (ofRuleSet_taxed _)
  exact ⟨snapshot, returned, points.mpr (RuleSet.SameGroups.refl _)⟩

/-- Asked for a set with entry points, an engine that knows the same rules without any answers
without any. -/
theorem order_forgets_entry_points : ∃ snapshot fresh,
    ((afterCalls [.order (taxed [])]).order (taxed [("Quote", ["tax"])])).1 = .ok snapshot ∧
      RuleOrder.ofRuleSet (taxed [("Quote", ["tax"])]) = .ok fresh ∧
      snapshot.order.entryPoint? "Quote" = none ∧
      (fresh.entryPoint? "Quote").map (·.map (·.name)) = some ["tax"] := by
  have first : (({} : OrderingEngine).order (taxed [])).2 =
      ⟨[⟨0, .ofSequence (taxed []) (taxed []).rules.reverse⟩], 1⟩ := by
    rw [order_of_built rfl (ofRuleSet_taxed [])]
  have found : (afterCalls [.order (taxed [])]).find? (taxed [("Quote", ["tax"])]).checksum =
      some ⟨0, .ofSequence (taxed []) (taxed []).rules.reverse⟩ := by
    have version : (taxed []).checksum = (taxed [("Quote", ["tax"])]).checksum := rfl
    change (({} : OrderingEngine).order (taxed [])).2.find? _ = _
    rw [first, find?_push]
    exact if_pos version
  rw [order_of_found found, ofRuleSet_taxed]
  exact ⟨_, _, rfl, rfl, rfl, by decide⟩

end OrderingEngine

end Rulebook

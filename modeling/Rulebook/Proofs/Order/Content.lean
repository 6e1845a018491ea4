import Rulebook.Proofs.Dependency.Topology
import Rulebook.Proofs.Rule.Content

/-!
# Orders depend on content

Rule sets of the same content are ordered in the same way or not at all. What their orders do not
share is the entry points, which are no part of the content.
-/
namespace Rulebook

/-- What depends on the content of rules only is the same for lists of one content. -/
theorem Rule.map_eq_of_sameContent {Item : Type} (view : Rule → Item)
    (blind : ∀ left right : Rule, left.SameContent right → view left = view right)
    {left right : List Rule} (same : List.Forall₂ Rule.SameContent left right) :
    left.map view = right.map view := by
  rw [← List.forall₂_eq_eq_eq, List.forall₂_map_left_iff, List.forall₂_map_right_iff]
  exact same.imp blind

/-- The same positions hold rules of one content. -/
theorem RuleGraph.rulesAt_sameContent {left right : RuleGraph}
    (same : List.Forall₂ Rule.SameContent left.rules right.rules) (positions : List Nat) :
    List.Forall₂ Rule.SameContent (left.rulesAt positions) (right.rulesAt positions) := by
  have lookup (index : Nat) :
      Option.Rel Rule.SameContent (left.rules[index]?) (right.rules[index]?) := by
    generalize left.rules = rules at same
    generalize right.rules = others at same
    induction same generalizing index with
    | nil => exact .none
    | cons alike _ ih =>
      cases index with
      | zero => exact .some alike
      | succ index => exact ih index
  apply List.rel_filterMap (R := Eq)
  · rintro index _ rfl
    exact lookup index
  · exact List.forall₂_refl positions

namespace RuleSet

variable {left right : RuleSet}

/-- Sets of one content have the same contexts, found under their own names. -/
theorem SameContent.contexts_eq (same : left.SameContent right) (leftValid : left.Valid)
    (rightValid : right.Valid) : left.contexts = right.contexts := by
  have named {set : RuleSet} (valid : set.Valid) :
      set.contexts =
        (set.contexts.map (·.2)).map fun definition => (definition.name, definition) := by
    have fixed : ∀ entry ∈ set.contexts, (entry.2.name, entry.2) = id entry :=
      fun entry member => Prod.ext (valid.contexts_named entry member).symm rfl
    rw [List.map_map]
    exact ((List.map_congr_left fixed).trans (List.map_id _)).symm
  rw [named leftValid, same.contexts, ← named rightValid]

/-- Links depend on what rules target and declare to read, which is part of their content. -/
theorem SameContent.links_eq (same : left.SameContent right) (leftValid : left.Valid)
    (rightValid : right.Valid) : RuleGraph.links left.rules left.contexts =
      RuleGraph.links right.rules right.contexts := by
  have targets := Rule.map_eq_of_sameContent (·.target) (fun _ _ alike => alike.target) same.rules
  have reads := Rule.map_eq_of_sameContent (·.reads) (fun _ _ alike => alike.reads) same.rules
  have links (set : RuleSet) : RuleGraph.links set.rules set.contexts =
      .between ((set.rules.map (·.target)).map (.ofAttribute set.contexts))
        ((set.rules.map (·.reads)).map (·.map (.ofAttribute set.contexts))) := by
    rw [List.map_map, List.map_map]
    rfl
  rw [links, links, targets, reads, same.contexts_eq leftValid rightValid]

/-- Their schedules take the same positions. -/
theorem SameContent.taken_eq (same : left.SameContent right) (leftValid : left.Valid)
    (rightValid : right.Valid) : left.graph.taken = right.graph.taken := by
  have lengths : left.graph.rules.length = right.graph.rules.length := same.rules.length_eq
  have links := same.links_eq leftValid rightValid
  have producers : left.graph.producersOf = right.graph.producersOf := by
    funext position
    rw [RuleSet.graph, RuleGraph.producersOf_ofRules, links, ← RuleGraph.producersOf_ofRules,
      ← RuleSet.graph]
  have consumers : left.graph.consumersOf = right.graph.consumersOf := by
    funext position
    rw [RuleSet.graph, RuleGraph.consumersOf_ofRules, links, ← RuleGraph.consumersOf_ofRules,
      ← RuleSet.graph]
  rw [RuleGraph.taken, producers, consumers, lengths, ← RuleGraph.taken]

/-- They have as many edges. -/
theorem SameContent.edgeCount_eq (same : left.SameContent right) (leftValid : left.Valid)
    (rightValid : right.Valid) : left.graph.edgeCount = right.graph.edgeCount :=
  congrArg (·.seen.length) (same.links_eq leftValid rightValid)

/-- An order of the one set is, rule by rule, an order of the other. -/
theorem SameContent.order (same : left.SameContent right) (leftValid : left.Valid)
    (rightValid : right.Valid) (ordered : List Rule) (returned : left.graph.order = .ok ordered) :
    ∃ others, right.graph.order = .ok others ∧ List.Forall₂ Rule.SameContent ordered others := by
  obtain ⟨positions, scheduled, rfl⟩ := (RuleGraph.order_ok_iff _ _).mp returned
  refine ⟨right.graph.rulesAt positions, (RuleGraph.order_ok_iff _ _).mpr ⟨positions, ?_, rfl⟩,
    RuleGraph.rulesAt_sameContent same.rules positions⟩
  -- The schedule looks at positions and edges only, and those are the same.
  rw [RuleGraph.orderedPositions_ok_iff] at scheduled ⊢
  have lengths : left.graph.rules.length = right.graph.rules.length := same.rules.length_eq
  rwa [← same.taken_eq leftValid rightValid, ← lengths]

/-- Entry points of the same names with the same members, however often and in whichever order a
member is named. -/
def SameGroups (left right : RuleSet) : Prop :=
  ∀ name, Option.Rel (fun members others => ∀ rule : String, rule ∈ members ↔ rule ∈ others)
    (Table.find? name left.entryPoints) (Table.find? name right.entryPoints)

theorem SameGroups.refl (set : RuleSet) : set.SameGroups set := by
  intro name
  cases Table.find? name set.entryPoints with
  | none => exact .none
  | some members => exact .some fun _ => Iff.rfl

end RuleSet

namespace RuleOrder

/-- Orders with rules of the same content in one sequence and as many edges between them. -/
structure SameRules (left right : RuleOrder) : Prop where
  rules : List.Forall₂ Rule.SameContent left.rules right.rules
  edgeCount : left.edgeCount = right.edgeCount

/-- Orders that list rules of the same content under every entry point. -/
def SameEntryPoints (left right : RuleOrder) : Prop :=
  ∀ name, Option.Rel (List.Forall₂ Rule.SameContent) (left.entryPoint? name)
    (right.entryPoint? name)

/-- The order of a set, given the sequence of its rules. -/
def ofSequence (set : RuleSet) (rules : List Rule) : RuleOrder where
  checksum := set.checksum
  rules := rules
  entryPoints := set.entryPoints.map fun (name, members) => (name, rules.filter (·.name ∈ members))
  edgeCount := set.graph.edgeCount

/-- The order of a set is made of the sequence that its graph returns. -/
theorem ofRuleSet_eq (set : RuleSet) : ofRuleSet set = set.graph.order.map (ofSequence set) := by
  unfold ofRuleSet
  dsimp only [bind, Except.bind, pure, Except.pure]
  cases set.graph.order with
  | error failure => rfl
  | ok rules => rfl

theorem ofRuleSet_ok_iff (set : RuleSet) (order : RuleOrder) :
    ofRuleSet set = .ok order ↔
      ∃ rules, set.graph.order = .ok rules ∧ ofSequence set rules = order := by
  rw [ofRuleSet_eq]
  cases set.graph.order with
  | error failure => simp [Except.map]
  | ok rules => simp [Except.map]

theorem ofRuleSet_checksum {set : RuleSet} {order : RuleOrder}
    (built : ofRuleSet set = .ok order) : order.checksum = set.checksum := by
  obtain ⟨rules, _, rfl⟩ := (ofRuleSet_ok_iff set order).mp built
  rfl

/-- An entry point lists the rules of the sequence that it names, in that sequence. -/
theorem entryPoint?_ofSequence (set : RuleSet) (rules : List Rule) (name : String) :
    (ofSequence set rules).entryPoint? name =
      (Table.find? name set.entryPoints).map fun members => rules.filter (·.name ∈ members) := by
  unfold entryPoint? ofSequence
  induction set.entryPoints with
  | nil => rfl
  | cons group rest ih =>
    simp only [List.map_cons, Table.find?]
    split
    · rfl
    · exact ih

variable {left right : RuleSet} {order other : RuleOrder}

/-- If a set has an order, every set of the same content has one with the same rules. -/
theorem ofRuleSet_sameRules (same : left.SameContent right) (leftValid : left.Valid)
    (rightValid : right.Valid) (built : ofRuleSet left = .ok order) :
    ∃ other, ofRuleSet right = .ok other ∧ order.SameRules other := by
  obtain ⟨rules, returned, rfl⟩ := (ofRuleSet_ok_iff left order).mp built
  obtain ⟨others, otherReturned, alike⟩ := same.order leftValid rightValid _ returned
  exact ⟨_, (ofRuleSet_ok_iff right _).mpr ⟨others, otherReturned, rfl⟩, alike,
    same.edgeCount_eq leftValid rightValid⟩

/-- Members name rules, so entry points with equal lists have equal members. -/
theorem members_subset {members others : List String} {rules rivals : List Rule}
    (named : ∀ member ∈ members, ∃ rule ∈ rules, rule.name = member)
    (names : (rules.filter (·.name ∈ members)).map (·.name) =
      (rivals.filter (·.name ∈ others)).map (·.name)) : members ⊆ others := by
  intro member listed
  obtain ⟨rule, ordered, rfl⟩ := named member listed
  have shown : rule.name ∈ (rules.filter (·.name ∈ members)).map (·.name) :=
    List.mem_map_of_mem (List.mem_filter.mpr ⟨ordered, decide_eq_true listed⟩)
  rw [names] at shown
  obtain ⟨rival, kept, equal⟩ := List.mem_map.mp shown
  rw [← equal]
  exact of_decide_eq_true (List.mem_filter.mp kept).2

/-- Orders of the same rules list the same under every entry point exactly if their sets declare
the same entry points. -/
theorem sameEntryPoints_iff (leftValid : left.Valid) (rightValid : right.Valid)
    (built : ofRuleSet left = .ok order) (otherBuilt : ofRuleSet right = .ok other)
    (same : order.SameRules other) : order.SameEntryPoints other ↔ left.SameGroups right := by
  obtain ⟨rules, returned, rfl⟩ := (ofRuleSet_ok_iff left order).mp built
  obtain ⟨others, otherReturned, rfl⟩ := (ofRuleSet_ok_iff right other).mp otherBuilt
  -- Members are names of rules of the set, and the order leaves out none of them.
  have named {set : RuleSet} {rules : List Rule} (valid : set.Valid)
      (returned : set.graph.order = .ok rules) {name : String} {members : List String}
      (group : Table.find? name set.entryPoints = some members) :
      ∀ member ∈ members, ∃ rule ∈ rules, rule.name = member := by
    intro member listed
    obtain ⟨rule, defined, named⟩ := List.mem_map.mp
      (valid.members_defined (name, members) (Table.mem_of_find? group) member listed)
    exact ⟨rule, (set.order_perm rules returned).mem_iff.mpr defined, named⟩
  refine forall_congr' fun name => ?_
  rw [entryPoint?_ofSequence, entryPoint?_ofSequence]
  cases group : Table.find? name left.entryPoints with
  | none =>
    cases otherGroup : Table.find? name right.entryPoints with
    | none => exact ⟨fun _ => .none, fun _ => .none⟩
    | some others => exact ⟨nofun, nofun⟩
  | some members =>
    cases otherGroup : Table.find? name right.entryPoints with
    | none => exact ⟨nofun, nofun⟩
    | some others =>
      simp only [Option.map_some, Option.rel_some_some]
      constructor
      · intro alike rule
        -- The listed rules have the same names, and every member names a rule.
        have names := Rule.map_eq_of_sameContent (·.name) (fun _ _ same => same.name) alike
        constructor
        · exact fun listed => members_subset (named leftValid returned group) names listed
        · exact fun listed =>
            members_subset (named rightValid otherReturned otherGroup) names.symm listed
      · intro agree
        apply List.rel_filter (R := Rule.SameContent) _ same.rules
        intro rule rival alike
        simp only [decide_eq_true_eq, alike.name]
        exact agree rival.name

end RuleOrder

end Rulebook

import Mathlib.Data.List.Nodup
import Rulebook.Rule.RuleSet

/-!
# What every rule set satisfies

A rule set that was built from declarations has rules of distinct names, entry points of distinct
names whose members are rules of the set, and contexts under their own names.
-/
namespace Rulebook

/-- What building a rule set ensures. -/
structure RuleSet.Valid (set : RuleSet) : Prop where
  names_nodup : (set.rules.map (·.name)).Nodup
  path_not_blank : ∀ rule ∈ set.rules, trimText rule.target.path ≠ ""
  members_defined : ∀ group ∈ set.entryPoints, ∀ member ∈ group.2,
    member ∈ set.rules.map (·.name)
  groups_nodup : (set.entryPoints.map (·.1)).Nodup
  contexts_named : ∀ entry ∈ set.contexts, entry.1 = entry.2.name

namespace RuleSet

/-- The check of rules passes distinct names, none of them taken before, and paths that are not
blank. -/
theorem checkRules_ok_iff (earlier : List String) (rules : List Rule) :
    checkRules earlier rules = .ok () ↔
      (rules.map (·.name)).Nodup ∧ (∀ rule ∈ rules, rule.name ∉ earlier) ∧
        ∀ rule ∈ rules, trimText rule.target.path ≠ "" := by
  induction rules generalizing earlier with
  | nil => simp [checkRules]
  | cons rule rules ih =>
    by_cases repeated : rule.name ∈ earlier
    · simp [checkRules, repeated]
    · by_cases blank : trimText rule.target.path = ""
      · simp [checkRules, repeated, blank]
      · simp only [checkRules, if_neg repeated, if_neg blank, ih, List.map_cons, List.nodup_cons,
          List.mem_cons, List.mem_map, forall_eq_or_imp]
        -- The names before the rest are those before the rule and the name of the rule.
        constructor
        · rintro ⟨distinct, apart, filled⟩
          refine ⟨⟨?_, distinct⟩, ⟨repeated, ?_⟩, blank, filled⟩
          · rintro ⟨other, member, same⟩
            exact apart other member (Or.inl same)
          · exact fun other member known => apart other member (Or.inr known)
        · rintro ⟨⟨fresh, distinct⟩, ⟨_, apart⟩, _, filled⟩
          refine ⟨distinct, ?_, filled⟩
          rintro other member (same | known)
          · exact fresh ⟨other, member, same⟩
          · exact apart other member known

/-- That of entry points passes distinct names and members that are rules. -/
theorem checkGroups_ok_iff (names earlier : List String) (groups : List (String × List String)) :
    checkGroups names earlier groups = .ok () ↔
      (∀ group ∈ groups, ∀ member ∈ group.2, member ∈ names) ∧
        (groups.map (·.1)).Nodup ∧ ∀ group ∈ groups, group.1 ∉ earlier := by
  induction groups generalizing earlier with
  | nil => simp [checkGroups]
  | cons group groups ih =>
    obtain ⟨name, members⟩ := group
    cases found : members.find? (· ∉ names) with
    | some missing =>
      -- A missing member is a member that is not defined.
      have undefined : missing ∉ names := by simpa using List.find?_some found
      have member := List.mem_of_find?_eq_some found
      simp only [checkGroups, found, reduceCtorEq, false_iff, List.mem_cons, forall_eq_or_imp]
      rintro ⟨⟨defined, _⟩, _⟩
      exact undefined (defined missing member)
    | none =>
      have defined : ∀ member ∈ members, member ∈ names := by
        simpa using List.find?_eq_none.mp found
      by_cases repeated : name ∈ earlier
      · simp only [checkGroups, found, if_pos repeated, reduceCtorEq, false_iff, List.mem_cons,
          forall_eq_or_imp]
        rintro ⟨_, _, fresh, _⟩
        exact fresh repeated
      · simp only [checkGroups, found, if_neg repeated, ih, List.map_cons, List.nodup_cons,
          List.mem_cons, List.mem_map, forall_eq_or_imp]
        constructor
        · rintro ⟨known, distinct, apart⟩
          refine ⟨⟨defined, known⟩, ⟨?_, distinct⟩, repeated, ?_⟩
          · rintro ⟨other, member, same⟩
            exact apart other member (Or.inl same)
          · exact fun other member old => apart other member (Or.inr old)
        · rintro ⟨⟨_, known⟩, ⟨fresh, distinct⟩, _, apart⟩
          refine ⟨known, distinct, ?_⟩
          rintro other member (same | old)
          · exact fresh ⟨other, member, same⟩
          · exact apart other member old

/-- Defining a context keeps all of them under their own names. -/
theorem contexts_named_define (contexts : ContextTable) (definition : ContextDefinition)
    (named : ∀ entry ∈ contexts, entry.1 = entry.2.name) :
    ∀ entry ∈ contexts.define definition, entry.1 = entry.2.name := by
  induction contexts with
  | nil => simp [ContextTable.define, Table.set]
  | cons first rest ih =>
    intro entry member
    simp only [ContextTable.define, Table.set] at member ih
    split at member
    next same =>
      -- The definition that is replaced had the same name.
      rcases List.mem_cons.mp member with rfl | later
      · exact same
      · exact named entry (List.mem_cons_of_mem _ later)
    next =>
      rcases List.mem_cons.mp member with rfl | later
      · exact named _ List.mem_cons_self
      · exact ih (fun other inside => named other (List.mem_cons_of_mem _ inside)) entry later

theorem contexts_named_foldl (definitions : List ContextDefinition) (contexts : ContextTable)
    (named : ∀ entry ∈ contexts, entry.1 = entry.2.name) :
    ∀ entry ∈ definitions.foldl ContextTable.define contexts, entry.1 = entry.2.name := by
  induction definitions generalizing contexts with
  | nil => exact named
  | cons definition definitions ih => exact ih _ (contexts_named_define _ _ named)

/-- A built rule set consists of the completed drafts, which passed both checks, the defined
contexts and the declared entry points. -/
theorem ofDeclarations_ok {declarations : List Declaration} {set : RuleSet}
    (built : ofDeclarations declarations = .ok set) :
    (drafts declarations).mapM RuleDraft.complete = .ok set.rules ∧
      checkRules [] set.rules = .ok () ∧
      checkGroups (set.rules.map (·.name)) [] set.entryPoints = .ok () ∧
      set.contexts = (definitions declarations).foldl ContextTable.define [] ∧
      set.entryPoints = groups declarations := by
  unfold ofDeclarations at built
  -- The three checks stand one behind another, and all of them passed.
  cases completed : (drafts declarations).mapM RuleDraft.complete with
  | error failure => simp [completed, bind, Except.bind] at built
  | ok rules =>
    cases checked : checkRules [] rules with
    | error failure => simp [completed, checked, bind, Except.bind] at built
    | ok =>
      cases grouped : checkGroups (rules.map (·.name)) [] (groups declarations) with
      | error failure => simp [completed, checked, grouped, bind, Except.bind] at built
      | ok =>
        simp only [completed, checked, grouped, bind, Except.bind, pure, Except.pure,
          Except.ok.injEq] at built
        subst built
        exact ⟨rfl, checked, grouped, rfl, rfl⟩

/-- Building makes only valid rule sets. -/
theorem valid_of_ofDeclarations {declarations : List Declaration} {set : RuleSet}
    (built : ofDeclarations declarations = .ok set) : set.Valid := by
  obtain ⟨_, checked, grouped, contexts, _⟩ := ofDeclarations_ok built
  obtain ⟨distinct, _, filled⟩ := (checkRules_ok_iff _ _).mp checked
  obtain ⟨defined, apart, _⟩ := (checkGroups_ok_iff _ _ _).mp grouped
  refine ⟨distinct, filled, defined, apart, ?_⟩
  rw [contexts]
  exact contexts_named_foldl _ _ (by simp)

end RuleSet

/-- Rules of a valid set are told apart by their names. -/
theorem RuleSet.Valid.rules_nodup {set : RuleSet} (valid : set.Valid) : set.rules.Nodup :=
  valid.names_nodup.of_map _

end Rulebook

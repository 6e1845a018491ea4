import Mathlib.Data.List.Duplicate
import Mathlib.Data.List.TakeWhile
import Rulebook.Proofs.Rule.Validity

/-!
# Which declarations make a rule set

Five conditions decide whether declarations make a rule set, and nothing else does. The checks stop
at the first fault that they meet, whatever else is wrong. But the fault that they report is there:
it is a fault of the rule or the entry point that the report names.
-/
namespace Rulebook

/-- Trimming leaves something exactly of a text that has a character which is not blank. -/
theorem trimText_eq_empty_iff (text : String) :
    trimText text = "" ↔ ∀ character ∈ text.toList, isBlank character = true := by
  rw [trimText, String.ofList_eq_empty_iff, trimChars, trimBack, trimFront,
    List.reverse_eq_nil_iff, List.dropWhile_eq_nil_iff]
  simp only [List.mem_reverse]
  constructor
  · intro blank
    -- What is left at the front would start with a character that is not blank.
    refine List.dropWhile_eq_nil_iff.mp (Classical.byContradiction fun left => ?_)
    have visible := List.head_dropWhile_not isBlank left
    rw [blank _ (List.head_mem left)] at visible
    cases visible
  · intro blank character member
    exact blank character ((List.dropWhile_sublist _).mem member)

/-- The draft that a rule completes. -/
def Rule.draft (rule : Rule) : RuleDraft :=
  { rule with payload := some rule.payload }

/-- One definition for each name, the last one, in the order in which the names come first. -/
structure ContextTable.KeepsLast (contexts : ContextTable)
    (definitions : List ContextDefinition) : Prop where
  once : (Table.names contexts).Nodup
  names_eq : Table.names contexts = (definitions.map (·.name)).eraseDups
  find?_eq : ∀ name, Table.find? name contexts = definitions.findRev? (·.name = name)

namespace RuleSet

/-- What declarations must satisfy to make a rule set. -/
structure Buildable (declarations : List Declaration) : Prop where
  payloads : ∀ draft ∈ drafts declarations, draft.payload ≠ none
  names_nodup : ((drafts declarations).map (·.name)).Nodup
  path_visible : ∀ draft ∈ drafts declarations,
    ∃ character ∈ draft.target.path.toList, isBlank character = false
  groups_nodup : ((groups declarations).map (·.1)).Nodup
  members_defined : ∀ group ∈ groups declarations, ∀ member ∈ group.2,
    ∃ draft ∈ drafts declarations, draft.name = member

/-- What a rule set takes from its declarations. -/
structure Holds (set : RuleSet) (declarations : List Declaration) : Prop where
  rules_eq : set.rules.map Rule.draft = drafts declarations
  contexts_keepLast : set.contexts.KeepsLast (definitions declarations)
  entryPoints_eq : set.entryPoints = groups declarations

end RuleSet

open RuleSet (drafts definitions groups Buildable)

/-- The fault that an error reports is one of the declarations. -/
inductive RuleSetError.Applies (declarations : List Declaration) : RuleSetError → Prop
  | missingPayload {draft : RuleDraft} (declared : draft ∈ drafts declarations)
      (missing : draft.payload = none) : Applies declarations (.missingPayload draft.name)
  | duplicateRule {name : String} (twice : ((drafts declarations).map (·.name)).Duplicate name) :
      Applies declarations (.duplicateRule name)
  | emptyTarget {draft : RuleDraft} (declared : draft ∈ drafts declarations)
      (blank : ∀ character ∈ draft.target.path.toList, isBlank character = true) :
      Applies declarations (.emptyTarget draft.name)
  | undefinedMember {name member : String} {members : List String}
      (declared : (name, members) ∈ groups declarations) (listed : member ∈ members)
      (undefined : ∀ draft ∈ drafts declarations, draft.name ≠ member) :
      Applies declarations (.undefinedMember name member)
  | duplicateEntryPoint {name : String}
      (twice : ((groups declarations).map (·.1)).Duplicate name) :
      Applies declarations (.duplicateEntryPoint name)

/-- Declarations with a fault make no rule set. -/
theorem RuleSetError.Applies.not_buildable {declarations : List Declaration}
    {failure : RuleSetError} (applies : failure.Applies declarations) :
    ¬ Buildable declarations := by
  intro sound
  cases applies with
  | missingPayload declared missing => exact sound.payloads _ declared missing
  | duplicateRule twice => exact twice.not_nodup sound.names_nodup
  | emptyTarget declared blank =>
    obtain ⟨character, member, visible⟩ := sound.path_visible _ declared
    rw [blank character member] at visible
    cases visible
  | undefinedMember declared listed undefined =>
    obtain ⟨draft, defined, named⟩ := sound.members_defined _ declared _ listed
    exact undefined draft defined named
  | duplicateEntryPoint twice => exact twice.not_nodup sound.groups_nodup

/-! ## Contexts -/

namespace ContextTable

variable {contexts : ContextTable} {earlier : List ContextDefinition}

theorem keepsLast_nil : KeepsLast [] [] :=
  ⟨List.nodup_nil, rfl, fun _ => rfl⟩

/-- A further definition replaces the earlier one of its name, or comes last. -/
theorem KeepsLast.step (keeps : contexts.KeepsLast earlier) (definition : ContextDefinition) :
    (contexts.define definition).KeepsLast (earlier ++ [definition]) where
  once := by
    rw [define, Table.names_set]
    split
    next => exact keeps.once
    next new =>
      refine List.nodup_append.mpr ⟨keeps.once, List.nodup_singleton _, fun name old _ last => ?_⟩
      rw [List.mem_singleton.mp last]
      exact fun same => new (same ▸ old)
  names_eq := by
    -- The name is new exactly if none of the earlier definitions has it.
    have known : definition.name ∈ Table.names contexts ↔
        definition.name ∈ earlier.map (·.name) := by
      rw [keeps.names_eq, List.mem_eraseDups]
    rw [define, Table.names_set, List.map_append, List.eraseDups_append, ← keeps.names_eq,
      List.map_singleton, List.cons_removeAll, List.nil_removeAll, List.contains_eq_mem]
    split
    next old =>
      rw [decide_eq_true (known.mp old), if_neg (by decide), List.eraseDups_nil, List.append_nil]
    next new =>
      rw [decide_eq_false (mt known.mpr new), if_pos rfl]
      rfl
  find?_eq name := by
    rw [List.findRev?_eq_find?_reverse, List.reverse_append, List.reverse_singleton,
      List.singleton_append, List.find?_cons, ← List.findRev?_eq_find?_reverse, ← keeps.find?_eq]
    -- Under its own name it is the last one, and under others nothing changes.
    by_cases same : definition.name = name
    · subst same
      simp [define, Table.find?_set_self]
    · simp [define, Table.find?_set_other (Ne.symm same), same]

theorem KeepsLast.run (keeps : contexts.KeepsLast earlier) (definitions : List ContextDefinition) :
    (definitions.foldl define contexts).KeepsLast (earlier ++ definitions) := by
  induction definitions generalizing contexts earlier with
  | nil => rwa [List.append_nil]
  | cons definition definitions ih =>
    rw [List.append_cons]
    exact ih (keeps.step definition)

theorem foldl_define_keepsLast (definitions : List ContextDefinition) :
    (definitions.foldl define []).KeepsLast definitions :=
  KeepsLast.run keepsLast_nil definitions

end ContextTable

namespace RuleSet

variable {declarations : List Declaration} {set : RuleSet} {failure : RuleSetError}

/-! ## Rules -/

/-- A draft is completed exactly by the rule it is the draft of. -/
theorem complete_eq_ok_iff {draft : RuleDraft} {rule : Rule} :
    draft.complete = .ok rule ↔ draft = rule.draft := by
  obtain ⟨name, target, reads, condition, payload, message⟩ := draft
  cases payload with
  | none => simp [RuleDraft.complete, Rule.draft]
  | some payload =>
    obtain ⟨name', target', reads', condition', payload', message'⟩ := rule
    simp [RuleDraft.complete, Rule.draft]

theorem complete_eq_error_iff {draft : RuleDraft} :
    draft.complete = .error failure ↔
      draft.payload = none ∧ failure = .missingPayload draft.name := by
  obtain ⟨name, target, reads, condition, payload, message⟩ := draft
  cases payload with
  | none => simp [RuleDraft.complete, eq_comm]
  | some payload => simp [RuleDraft.complete]

theorem completeAll_ok {drafts : List RuleDraft} {rules : List Rule}
    (completed : drafts.mapM RuleDraft.complete = .ok rules) : rules.map Rule.draft = drafts := by
  induction drafts generalizing rules with
  | nil =>
    cases completed
    rfl
  | cons draft drafts ih =>
    rw [List.mapM_cons] at completed
    cases first : draft.complete with
    | error failure => simp [first, bind, Except.bind] at completed
    | ok rule =>
      cases rest : drafts.mapM RuleDraft.complete with
      | error failure => simp [first, rest, bind, Except.bind] at completed
      | ok others =>
        simp only [first, rest, bind, Except.bind, pure, Except.pure, Except.ok.injEq] at completed
        subst completed
        rw [List.map_cons, ih rest, ← complete_eq_ok_iff.mp first]

theorem completeAll_error {drafts : List RuleDraft}
    (failed : drafts.mapM RuleDraft.complete = .error failure) :
    ∃ draft ∈ drafts, draft.payload = none ∧ failure = .missingPayload draft.name := by
  induction drafts with
  | nil => cases failed
  | cons draft drafts ih =>
    rw [List.mapM_cons] at failed
    cases first : draft.complete with
    | error failure =>
      simp only [first, bind, Except.bind, Except.error.injEq] at failed
      exact ⟨draft, List.mem_cons_self, complete_eq_error_iff.mp (failed ▸ first)⟩
    | ok rule =>
      cases rest : drafts.mapM RuleDraft.complete with
      | error failure =>
        simp only [first, rest, bind, Except.bind, Except.error.injEq] at failed
        -- The first draft is complete, so the failure is that of a later one.
        obtain ⟨other, member, incomplete⟩ := ih (failed ▸ rest)
        exact ⟨other, List.mem_cons_of_mem _ member, incomplete⟩
      | ok others => simp [first, rest, bind, Except.bind, pure, Except.pure] at failed

/-- A name repeats one of the earlier names or one of those ahead. -/
def Repeats (earlier ahead : List String) (name : String) : Prop :=
  name ∈ earlier ∧ name ∈ ahead ∨ ahead.Duplicate name

theorem repeats_nil_iff {ahead : List String} {name : String} :
    Repeats [] ahead name ↔ ahead.Duplicate name := by
  simp [Repeats]

/-- The next name is the last of the earlier ones for those behind it. -/
theorem Repeats.of_next {earlier ahead : List String} {next name : String}
    (repeats : Repeats (next :: earlier) ahead name) : Repeats earlier (next :: ahead) name := by
  rcases repeats with ⟨old, later⟩ | twice
  · rcases List.mem_cons.mp old with rfl | before
    · exact .inr (List.Mem.duplicate_cons_self later)
    · exact .inl ⟨before, List.mem_cons_of_mem _ later⟩
  · exact .inr (twice.duplicate_cons _)

/-- A rule is reported for its name, which an earlier one has, or for its path. -/
theorem checkRules_error {earlier : List String} {rules : List Rule}
    (failed : checkRules earlier rules = .error failure) :
    (∃ name, failure = .duplicateRule name ∧ Repeats earlier (rules.map (·.name)) name) ∨
    ∃ rule ∈ rules, trimText rule.target.path = "" ∧ failure = .emptyTarget rule.name := by
  induction rules generalizing earlier with
  | nil => cases failed
  | cons rule rules ih =>
    rw [checkRules] at failed
    split at failed
    next repeated =>
      cases failed
      exact .inl ⟨_, rfl, .inl ⟨repeated, List.mem_cons_self⟩⟩
    next =>
      split at failed
      next blank =>
        cases failed
        exact .inr ⟨rule, List.mem_cons_self, blank, rfl⟩
      next =>
        -- What is repeated or blank behind the first rule is so in the whole list.
        rcases ih failed with ⟨name, rfl, repeats⟩ | ⟨other, member, blank, rfl⟩
        · exact .inl ⟨name, rfl, repeats.of_next⟩
        · exact .inr ⟨other, List.mem_cons_of_mem _ member, blank, rfl⟩

/-! ## Entry points -/

/-- An entry point is reported for a member that is no rule, or for its name. -/
theorem checkGroups_error {names earlier : List String} {groups : List (String × List String)}
    (failed : checkGroups names earlier groups = .error failure) :
    (∃ group ∈ groups, ∃ member ∈ group.2,
      member ∉ names ∧ failure = .undefinedMember group.1 member) ∨
    ∃ name, failure = .duplicateEntryPoint name ∧ Repeats earlier (groups.map (·.1)) name := by
  induction groups generalizing earlier with
  | nil => cases failed
  | cons group groups ih =>
    obtain ⟨name, members⟩ := group
    rw [checkGroups] at failed
    split at failed
    next missing found =>
      cases failed
      have undefined : missing ∉ names := by simpa using List.find?_some found
      exact .inl ⟨_, List.mem_cons_self, missing, List.mem_of_find?_eq_some found, undefined, rfl⟩
    next =>
      split at failed
      next repeated =>
        cases failed
        exact .inr ⟨name, rfl, .inl ⟨repeated, List.mem_cons_self⟩⟩
      next =>
        rcases ih failed with ⟨other, declared, fault⟩ | ⟨other, rfl, repeats⟩
        · exact .inl ⟨other, List.mem_cons_of_mem _ declared, fault⟩
        · exact .inr ⟨other, rfl, repeats.of_next⟩

/-! ## Building -/

theorem map_draft_name (rules : List Rule) :
    (rules.map Rule.draft).map (·.name) = rules.map (·.name) := by
  rw [List.map_map]
  rfl

/-- An error comes from the first of the three steps that fails. -/
theorem applies_of_ofDeclarations (failed : ofDeclarations declarations = .error failure) :
    failure.Applies declarations := by
  unfold ofDeclarations at failed
  cases completed : (drafts declarations).mapM RuleDraft.complete with
  | error failure =>
    simp only [completed, bind, Except.bind, Except.error.injEq] at failed
    obtain ⟨draft, declared, missing, rfl⟩ := completeAll_error (failed ▸ completed)
    exact .missingPayload declared missing
  | ok rules =>
    -- All drafts are completed, so the rules stand for the drafts from here on.
    have drafted := completeAll_ok completed
    have names : (drafts declarations).map (·.name) = rules.map (·.name) :=
      drafted ▸ map_draft_name rules
    cases checked : checkRules [] rules with
    | error failure =>
      simp only [completed, checked, bind, Except.bind, Except.error.injEq] at failed
      rcases checkRules_error (failed ▸ checked) with ⟨name, rfl, repeats⟩ |
        ⟨rule, member, blank, rfl⟩
      · exact .duplicateRule (names ▸ repeats_nil_iff.mp repeats)
      · have declared : rule.draft ∈ drafts declarations := drafted ▸ List.mem_map_of_mem member
        exact .emptyTarget declared ((trimText_eq_empty_iff rule.target.path).mp blank)
    | ok =>
      cases grouped : checkGroups (rules.map (·.name)) [] (groups declarations) with
      | error failure =>
        simp only [completed, checked, grouped, bind, Except.bind, Except.error.injEq] at failed
        rcases checkGroups_error (failed ▸ grouped) with
          ⟨group, declared, member, listed, undefined, rfl⟩ | ⟨name, rfl, repeats⟩
        · refine .undefinedMember declared listed fun draft drafted same => undefined ?_
          rw [← names, ← same]
          exact List.mem_map_of_mem drafted
        · exact .duplicateEntryPoint (repeats_nil_iff.mp repeats)
      | ok => simp [completed, checked, grouped, bind, Except.bind, pure, Except.pure] at failed

theorem holds_of_ofDeclarations (built : ofDeclarations declarations = .ok set) :
    set.Holds declarations := by
  obtain ⟨completed, _, _, contexts, entryPoints⟩ := ofDeclarations_ok built
  exact ⟨completeAll_ok completed, contexts ▸ ContextTable.foldl_define_keepsLast _, entryPoints⟩

theorem buildable_of_ofDeclarations (built : ofDeclarations declarations = .ok set) :
    Buildable declarations := by
  have valid := valid_of_ofDeclarations built
  obtain ⟨rules, _, entryPoints⟩ := holds_of_ofDeclarations built
  constructor
  case payloads =>
    intro draft declared
    obtain ⟨rule, _, rfl⟩ := List.mem_map.mp (rules ▸ declared)
    exact Option.some_ne_none _
  case names_nodup =>
    rw [← rules, map_draft_name]
    exact valid.names_nodup
  case path_visible =>
    intro draft declared
    obtain ⟨rule, member, rfl⟩ := List.mem_map.mp (rules ▸ declared)
    have filled :=
      mt (trimText_eq_empty_iff rule.target.path).mpr (valid.path_not_blank rule member)
    simp only [not_forall, Bool.not_eq_true, exists_prop] at filled
    exact filled
  case groups_nodup => exact entryPoints ▸ valid.groups_nodup
  case members_defined =>
    intro group declared member listed
    obtain ⟨rule, defined, rfl⟩ :=
      List.mem_map.mp (valid.members_defined group (entryPoints ▸ declared) member listed)
    exact ⟨rule.draft, rules ▸ List.mem_map_of_mem defined, rfl⟩

/-- Declarations make a rule set exactly if all five conditions hold. The set then has their rules
and entry points as they were declared, and the last definition of each context in the place of its
first. Otherwise the error reports a rule or an entry point that really has the fault. -/
theorem validation_is_exact (declarations : List Declaration) :
    ((∃ set, ofDeclarations declarations = .ok set) ↔ Buildable declarations) ∧
    (∀ set, ofDeclarations declarations = .ok set → set.Holds declarations) ∧
    ∀ failure, ofDeclarations declarations = .error failure → failure.Applies declarations := by
  refine ⟨⟨?_, fun sound => ?_⟩, fun _ => holds_of_ofDeclarations, fun _ =>
    applies_of_ofDeclarations⟩
  · rintro ⟨set, built⟩
    exact buildable_of_ofDeclarations built
  · cases outcome : ofDeclarations declarations with
    | ok set => exact ⟨set, rfl⟩
    | error failure => exact absurd sound (applies_of_ofDeclarations outcome).not_buildable

/-- A draft that asserts the truth. -/
def assertingDraft (name : String) (target : Attribute) : RuleDraft :=
  { name, target, payload := some (.assertion { expression := .literal (.bool true) }) }

/-- An entry point that is declared before its rule, which it names twice, and a context that is
defined a second time. -/
def quoteDeclarations : List Declaration :=
  [.entryPoint "Quote" ["tax", "tax"], .context { name := "Policy" },
    .rule (assertingDraft "tax" ⟨"Policy", " tax"⟩), .context { name := "Auto" },
    .context { name := "Policy", ancestors := ["Auto"] }]

/-- Of a repeated rule name, a blank path and an undefined member the first is reported. -/
theorem validation_is_exact_of_quote :
    (∃ set, ofDeclarations quoteDeclarations = .ok set ∧ set.Holds quoteDeclarations ∧
      set.contexts = [("Policy", { name := "Policy", ancestors := ["Auto"] }),
        ("Auto", { name := "Auto" })]) ∧
    Buildable quoteDeclarations ∧
    let faulty := quoteDeclarations ++ [.rule (assertingDraft "tax" ⟨"Policy", "\u2003"⟩),
      .entryPoint "Quote" ["fee"]]
    ofDeclarations faulty = .error (.duplicateRule "tax") ∧
      (RuleSetError.duplicateRule "tax").Applies faulty ∧ ¬ Buildable faulty := by
  obtain ⟨iff, holds, _⟩ := validation_is_exact quoteDeclarations
  refine ⟨⟨_, rfl, holds _ rfl, rfl⟩, iff.mp ⟨_, rfl⟩, ?_⟩
  intro faulty
  have failed : ofDeclarations faulty = .error (.duplicateRule "tax") := rfl
  have applies := (validation_is_exact faulty).2.2 _ failed
  exact ⟨failed, applies, applies.not_buildable⟩

end RuleSet

end Rulebook

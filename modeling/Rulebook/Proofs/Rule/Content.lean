import Rulebook.Proofs.Expression.Content

/-!
# The bytes of rule sets

The canonical bytes of a rule set tell the content of its rules and contexts, in their order. Only
the entry points and the trailing zeros of numbers leave no trace.
-/
namespace Rulebook

namespace MessageTemplate

def Fits (template : MessageTemplate) : Prop :=
  (template.parts.length < Bytes.countLimit ∧ ∀ part ∈ template.parts, Bytes.TextFits part) ∧
    template.formulas.length < Bytes.countLimit ∧ ∀ formula ∈ template.formulas, formula.Fits

/-- Templates with the same parts around formulas of the same content. -/
structure SameContent (left right : MessageTemplate) : Prop where
  parts : left.parts = right.parts
  formulas : List.Forall₂ Formula.SameContent left.formulas right.formulas

theorem bytes_delimited : Bytes.Delimited bytes Fits SameContent := by
  intro left right leftFits rightFits afterLeft afterRight equal
  simp only [bytes, List.append_assoc] at equal
  obtain ⟨parts, rest⟩ :=
    Bytes.ofText_delimited.ofList _ _ leftFits.1 rightFits.1 _ _ equal
  obtain ⟨formulas, after⟩ :=
    Formula.bytes_delimited.ofList _ _ leftFits.2 rightFits.2 _ _ rest
  exact ⟨⟨List.forall₂_eq_eq_eq ▸ parts, formulas⟩, after⟩

theorem SameContent.bytes_eq {left right : MessageTemplate} (same : left.SameContent right) :
    left.bytes = right.bytes := by
  have formulas : Bytes.ofList Formula.bytes left.formulas =
      Bytes.ofList Formula.bytes right.formulas :=
    Bytes.ofList_eq_of_forall₂ (fun _ _ alike => alike.bytes_eq) same.formulas
  rw [bytes, same.parts, formulas, ← bytes]

end MessageTemplate

namespace Attribute

def Fits (target : Attribute) : Prop :=
  Bytes.TextFits target.context ∧ Bytes.TextFits target.path

theorem bytes_delimited : Bytes.Delimited bytes Fits Eq := by
  intro left right leftFits rightFits afterLeft afterRight equal
  simp only [bytes, List.append_assoc] at equal
  obtain ⟨contexts, rest⟩ :=
    Bytes.ofText_delimited _ _ leftFits.1 rightFits.1 _ _ equal
  obtain ⟨paths, after⟩ := Bytes.ofText_delimited _ _ leftFits.2 rightFits.2 _ _ rest
  cases left
  cases right
  exact ⟨by simp_all, after⟩

end Attribute

namespace NumberSet

/-- Number sets with bounds and steps of the same values. -/
structure SameContent (left right : NumberSet) : Prop where
  lower : Option.Rel Decimal.SameValue left.lower right.lower
  upper : Option.Rel Decimal.SameValue left.upper right.upper
  step : Option.Rel Decimal.SameValue left.step right.step

theorem bytes_delimited : Bytes.Delimited bytes (fun _ => True) SameContent := by
  intro left right _ _ afterLeft afterRight equal
  simp only [bytes, List.append_assoc] at equal
  have optional := Decimal.bytes_delimited.ofOption
  obtain ⟨lowers, afterLower⟩ := optional _ _ (by simp) (by simp) _ _ equal
  obtain ⟨uppers, afterUpper⟩ := optional _ _ (by simp) (by simp) _ _ afterLower
  obtain ⟨steps, after⟩ := optional _ _ (by simp) (by simp) _ _ afterUpper
  exact ⟨⟨lowers, uppers, steps⟩, after⟩

theorem SameContent.bytes_eq {left right : NumberSet} (same : left.SameContent right) :
    left.bytes = right.bytes := by
  have blind (left right : Decimal) (alike : left.SameValue right) : left.bytes = right.bytes :=
    (Decimal.bytes_eq_iff left right).mpr alike
  rw [bytes, Bytes.ofOption_eq_of_rel blind same.lower, Bytes.ofOption_eq_of_rel blind same.upper,
    Bytes.ofOption_eq_of_rel blind same.step, ← bytes]

end NumberSet

namespace Payload

def Fits : Payload → Prop
  | assertion formula | default formula | reset formula => formula.Fits
  | numberSet _ => True

/-- Payloads of one kind with the same content. -/
inductive SameContent : Payload → Payload → Prop
  | assertion {left right : Formula} (formula : left.SameContent right) :
      SameContent (assertion left) (assertion right)
  | default {left right : Formula} (formula : left.SameContent right) :
      SameContent (default left) (default right)
  | reset {left right : Formula} (formula : left.SameContent right) :
      SameContent (reset left) (reset right)
  | numberSet {left right : NumberSet} (set : left.SameContent right) :
      SameContent (numberSet left) (numberSet right)

theorem bytes_delimited : Bytes.Delimited bytes Fits SameContent := by
  intro left right leftFits rightFits afterLeft afterRight equal
  cases left with
  | assertion formula =>
    cases right with
    | assertion other =>
      simp only [bytes, List.cons_append, List.cons.injEq, true_and] at equal
      obtain ⟨same, after⟩ := Formula.bytes_delimited _ _ leftFits rightFits _ _ equal
      exact ⟨.assertion same, after⟩
    | _ => simp [bytes] at equal
  | default formula =>
    cases right with
    | default other =>
      simp only [bytes, List.cons_append, List.cons.injEq, true_and] at equal
      obtain ⟨same, after⟩ := Formula.bytes_delimited _ _ leftFits rightFits _ _ equal
      exact ⟨.default same, after⟩
    | _ => simp [bytes] at equal
  | reset formula =>
    cases right with
    | reset other =>
      simp only [bytes, List.cons_append, List.cons.injEq, true_and] at equal
      obtain ⟨same, after⟩ := Formula.bytes_delimited _ _ leftFits rightFits _ _ equal
      exact ⟨.reset same, after⟩
    | _ => simp [bytes] at equal
  | numberSet set =>
    cases right with
    | numberSet other =>
      simp only [bytes, List.cons_append, List.cons.injEq, true_and] at equal
      obtain ⟨same, after⟩ := NumberSet.bytes_delimited _ _ trivial trivial _ _ equal
      exact ⟨.numberSet same, after⟩
    | _ => simp [bytes] at equal

theorem SameContent.bytes_eq {left right : Payload} (same : left.SameContent right) :
    left.bytes = right.bytes := by
  cases same with
  | assertion formula => rw [bytes, bytes, formula.bytes_eq]
  | default formula => rw [bytes, bytes, formula.bytes_eq]
  | reset formula => rw [bytes, bytes, formula.bytes_eq]
  | numberSet set => rw [bytes, bytes, set.bytes_eq]

end Payload

namespace Rule

/-- All lengths in the rule fit into eight bytes. -/
structure Fits (rule : Rule) : Prop where
  name : Bytes.TextFits rule.name
  target : rule.target.Fits
  reads : rule.reads.length < Bytes.countLimit ∧ ∀ read ∈ rule.reads, read.Fits
  condition : ∀ formula ∈ rule.condition, formula.Fits
  payload : rule.payload.Fits
  message : ∀ template ∈ rule.message, template.Fits

/-- Rules of one name that are bound to one attribute and read the same ones, with conditions,
payloads and messages of the same content. -/
structure SameContent (left right : Rule) : Prop where
  name : left.name = right.name
  target : left.target = right.target
  reads : left.reads = right.reads
  condition : Option.Rel Formula.SameContent left.condition right.condition
  payload : left.payload.SameContent right.payload
  message : Option.Rel MessageTemplate.SameContent left.message right.message

theorem bytes_delimited : Bytes.Delimited bytes Fits SameContent := by
  intro left right leftFits rightFits afterLeft afterRight equal
  simp only [bytes, List.append_assoc] at equal
  -- The fields are taken off one after another; each tells where the next one begins.
  obtain ⟨names, afterName⟩ :=
    Bytes.ofText_delimited _ _ leftFits.name rightFits.name _ _ equal
  obtain ⟨targets, afterTarget⟩ :=
    Attribute.bytes_delimited _ _ leftFits.target rightFits.target _ _ afterName
  obtain ⟨reads, afterReads⟩ :=
    Attribute.bytes_delimited.ofList _ _ leftFits.reads rightFits.reads _ _ afterTarget
  obtain ⟨conditions, afterCondition⟩ :=
    Formula.bytes_delimited.ofOption _ _ leftFits.condition rightFits.condition _ _ afterReads
  obtain ⟨payloads, afterPayload⟩ :=
    Payload.bytes_delimited _ _ leftFits.payload rightFits.payload _ _ afterCondition
  obtain ⟨messages, after⟩ :=
    MessageTemplate.bytes_delimited.ofOption _ _ leftFits.message rightFits.message _ _
      afterPayload
  exact ⟨⟨names, targets, List.forall₂_eq_eq_eq ▸ reads, conditions, payloads, messages⟩, after⟩

theorem SameContent.bytes_eq {left right : Rule} (same : left.SameContent right) :
    left.bytes = right.bytes := by
  have condition : Bytes.ofOption Formula.bytes left.condition =
      Bytes.ofOption Formula.bytes right.condition :=
    Bytes.ofOption_eq_of_rel (fun _ _ alike => alike.bytes_eq) same.condition
  have message : Bytes.ofOption MessageTemplate.bytes left.message =
      Bytes.ofOption MessageTemplate.bytes right.message :=
    Bytes.ofOption_eq_of_rel (fun _ _ alike => alike.bytes_eq) same.message
  rw [bytes, same.name, same.target, same.reads, condition, same.payload.bytes_eq, message,
    ← bytes]

end Rule

namespace Table

def TextsFit (entries : Table String) : Prop :=
  entries.length < Bytes.countLimit ∧
    ∀ entry ∈ entries, Bytes.TextFits entry.1 ∧ Bytes.TextFits entry.2

theorem textBytes_delimited : Bytes.Delimited textBytes TextsFit Eq := by
  have entry_delimited : Bytes.Delimited
      (fun entry : String × String => Bytes.ofText entry.1 ++ Bytes.ofText entry.2)
      (fun entry => Bytes.TextFits entry.1 ∧ Bytes.TextFits entry.2) Eq := by
    intro left right leftFits rightFits afterLeft afterRight equal
    simp only [List.append_assoc] at equal
    obtain ⟨names, rest⟩ := Bytes.ofText_delimited _ _ leftFits.1 rightFits.1 _ _ equal
    obtain ⟨values, after⟩ := Bytes.ofText_delimited _ _ leftFits.2 rightFits.2 _ _ rest
    exact ⟨Prod.ext names values, after⟩
  intro left right leftFits rightFits afterLeft afterRight equal
  obtain ⟨entries, after⟩ := entry_delimited.ofList _ _ leftFits rightFits _ _ equal
  exact ⟨List.forall₂_eq_eq_eq ▸ entries, after⟩

end Table

namespace ContextDefinition

/-- All lengths in the definition fit into eight bytes. -/
structure Fits (definition : ContextDefinition) : Prop where
  name : Bytes.TextFits definition.name
  ancestors : definition.ancestors.length < Bytes.countLimit ∧
    ∀ ancestor ∈ definition.ancestors, Bytes.TextFits ancestor
  children : definition.children.TextsFit
  fields : definition.fields.TextsFit

theorem bytes_delimited : Bytes.Delimited bytes Fits Eq := by
  intro left right leftFits rightFits afterLeft afterRight equal
  simp only [bytes, List.append_assoc] at equal
  obtain ⟨names, afterName⟩ :=
    Bytes.ofText_delimited _ _ leftFits.name rightFits.name _ _ equal
  obtain ⟨ancestors, afterAncestors⟩ :=
    Bytes.ofText_delimited.ofList _ _ leftFits.ancestors rightFits.ancestors _ _ afterName
  rw [List.forall₂_eq_eq_eq] at ancestors
  obtain ⟨children, afterChildren⟩ :=
    Table.textBytes_delimited _ _ leftFits.children rightFits.children _ _ afterAncestors
  obtain ⟨fields, after⟩ :=
    Table.textBytes_delimited _ _ leftFits.fields rightFits.fields _ _ afterChildren
  cases left
  cases right
  exact ⟨by simp_all, after⟩

end ContextDefinition

namespace RuleSet

/-- All lengths in the rules and contexts fit into eight bytes. -/
structure Fits (set : RuleSet) : Prop where
  rules : set.rules.length < Bytes.countLimit ∧ ∀ rule ∈ set.rules, rule.Fits
  contexts : set.contexts.length < Bytes.countLimit ∧
    ∀ entry ∈ set.contexts, entry.2.Fits

/-- Rule sets with rules of the same content and equal context definitions, each in one order. -/
structure SameContent (left right : RuleSet) : Prop where
  rules : List.Forall₂ Rule.SameContent left.rules right.rules
  contexts : left.contexts.map (·.2) = right.contexts.map (·.2)

theorem sameContent_of_bytes (left right : RuleSet) (leftFits : left.Fits)
    (rightFits : right.Fits) (equal : left.bytes = right.bytes) : left.SameContent right := by
  have definition_delimited : Bytes.Delimited
      (fun entry : String × ContextDefinition => entry.2.bytes) (fun entry => entry.2.Fits)
      (fun entry other => entry.2 = other.2) := by
    intro entry other entryFits otherFits afterLeft afterRight equal
    exact ContextDefinition.bytes_delimited _ _ entryFits otherFits _ _ equal
  unfold bytes at equal
  obtain ⟨rules, rest⟩ :=
    Rule.bytes_delimited.ofList _ _ leftFits.rules rightFits.rules _ _ equal
  -- Nothing stands behind the contexts, which is where the bytes end.
  rw [← List.append_nil (Bytes.ofList _ left.contexts),
    ← List.append_nil (Bytes.ofList _ right.contexts)] at rest
  obtain ⟨contexts, _⟩ :=
    definition_delimited.ofList _ _ leftFits.contexts rightFits.contexts _ _ rest
  refine ⟨rules, ?_⟩
  rwa [← List.forall₂_eq_eq_eq, List.forall₂_map_left_iff, List.forall₂_map_right_iff]

theorem SameContent.bytes_eq {left right : RuleSet} (same : left.SameContent right) :
    left.bytes = right.bytes := by
  have rules : Bytes.ofList Rule.bytes left.rules = Bytes.ofList Rule.bytes right.rules :=
    Bytes.ofList_eq_of_forall₂ (fun _ _ alike => alike.bytes_eq) same.rules
  have definitions : List.Forall₂ (fun entry other : String × ContextDefinition =>
      entry.2 = other.2) left.contexts right.contexts := by
    rw [← List.forall₂_map_right_iff, ← List.forall₂_map_left_iff, List.forall₂_eq_eq_eq]
    exact same.contexts
  have contexts : Bytes.ofList (fun entry => entry.2.bytes) left.contexts =
      Bytes.ofList (fun entry => entry.2.bytes) right.contexts :=
    Bytes.ofList_eq_of_forall₂ (fun _ _ equal => congrArg ContextDefinition.bytes equal) definitions
  rw [bytes, rules, contexts, ← bytes]

/-- The bytes tell the content and nothing else. -/
theorem bytes_eq_iff_sameContent (left right : RuleSet) (leftFits : left.Fits)
    (rightFits : right.Fits) : left.bytes = right.bytes ↔ left.SameContent right :=
  ⟨sameContent_of_bytes left right leftFits rightFits, SameContent.bytes_eq⟩

/-- A rule that sets a rate as long as the total stays below a limit. -/
def discountRule (rate limit : Decimal) : Rule where
  name := "discount"
  target := ⟨"Order", "rate"⟩
  reads := [⟨"Order", "total"⟩]
  condition := some ⟨.binary .less (.property .this "total") (.literal (.number limit)), []⟩
  payload := .default ⟨.literal (.number rate), []⟩

def discounts (rate limit : Decimal) : RuleSet where
  rules := [discountRule rate limit]
  contexts := [("Order", { name := "Order", fields := [("rate", "number")] })]
  entryPoints := []

theorem discountRule_fits (rate limit : Decimal) : (discountRule rate limit).Fits where
  name := (by decide : Bytes.TextFits "discount")
  target := (by decide : Bytes.TextFits "Order" ∧ Bytes.TextFits "rate")
  reads := by
    simp only [discountRule, List.length_singleton, List.forall_mem_singleton, Attribute.Fits]
    decide
  condition := by
    rintro formula ⟨⟩
    have references : (⟨.binary .less (.property .this "total") (.literal (.number limit)),
      []⟩ : Formula).references = [] := rfl
    simp only [Formula.Fits, references, Expression.Fits, Value.Fits]
    decide
  payload := by
    have references : (⟨.literal (.number rate), []⟩ : Formula).references = [] := rfl
    simp only [discountRule, Payload.Fits, Formula.Fits, references, Expression.Fits, Value.Fits]
    decide
  message := by simp [discountRule]

theorem discounts_fits (rate limit : Decimal) : (discounts rate limit).Fits where
  rules := by
    simp only [discounts, List.length_singleton, List.forall_mem_singleton]
    exact ⟨by decide, discountRule_fits rate limit⟩
  contexts := by
    simp only [discounts, List.length_singleton, List.forall_mem_singleton]
    refine ⟨by decide, by decide, by decide, ?_, ?_⟩
    · exact ⟨by decide, by simp⟩
    · exact ⟨by decide, by simp only [List.forall_mem_singleton]; decide⟩

/-- A rate of 1.5 below 200 and one of 1.50 below 200.00 are the same content, a rate of 1.6 is
not. -/
theorem bytes_eq_iff_sameContent_of_discounts :
    (discounts { mantissa := 15, scale := 1 } { mantissa := 200, scale := 0 }).SameContent
        (discounts { mantissa := 150, scale := 2 } { mantissa := 20000, scale := 2 }) ∧
      ¬ (discounts { mantissa := 15, scale := 1 } { mantissa := 200, scale := 0 }).SameContent
        (discounts { mantissa := 16, scale := 1 } { mantissa := 200, scale := 0 }) := by
  constructor
  · apply (bytes_eq_iff_sameContent _ _ (discounts_fits _ _) (discounts_fits _ _)).mp
    rfl
  · intro same
    have equal := (bytes_eq_iff_sameContent _ _ (discounts_fits _ _) (discounts_fits _ _)).mpr same
    revert equal
    decide

end RuleSet

end Rulebook

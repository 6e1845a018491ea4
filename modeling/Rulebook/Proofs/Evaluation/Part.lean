import Rulebook.Proofs.Evaluation.Operator

/-!
# Parts of related values

Evaluation takes values apart by reading properties, by listing elements and by looking up items.
Values of one content have parts of one content, and both fail alike. What the standard adapters
list is written out without a registry.
-/
namespace Rulebook

namespace Value

open List (Forall₂)

/-- What a projection splices in has the content of what it is given. -/
theorem SameContent.spread {left right : Value} (same : left.SameContent right) :
    Forall₂ SameContent left.spread right.spread := by
  have single := same
  cases same with
  | null => exact .nil
  | list items => exact sameItems_iff_forall₂.mp items
  | _ => exact .cons single .nil

/-- A name leads to values of one content, null where it is missing. -/
theorem SameEntries.findOrNull {lefts rights : List (String × Value)}
    (same : SameEntries lefts rights) (name : String) :
    SameContent ((Table.find? name lefts).getD null) ((Table.find? name rights).getD null) := by
  have related := same.find? name
  generalize Table.find? name lefts = found at related ⊢
  generalize Table.find? name rights = found' at related ⊢
  cases related with
  | none => exact .null
  | some item => exact item

mutual

/-- Properties of values of one content have one content or fail alike. -/
theorem SameContent.getProperty (name : String) {left right : Value} :
    left.SameContent right →
      Alike (fun _ => True) SameContent (left.getProperty name) (right.getProperty name)
  | .null | .absent => by
    simp only [Value.getProperty]
    exact .ok .null
  | .bool _ | .number _ | .text _ | .date _ | .dateTime _ => by
    simp only [Value.getProperty]
    exact .error trivial
  | .present inner => by
    simp only [Value.getProperty]
    exact inner.getProperty name
  | .map entries => by
    simp only [Value.getProperty]
    exact .ok (entries.findOrNull name)
  | .entity typeName _ fields => by
    have related := fields.find? name
    simp only [Value.getProperty]
    generalize Table.find? name _ = found at related ⊢
    generalize Table.find? name _ = found' at related ⊢
    cases related with
    | none => exact .error trivial
    | some field => exact .ok field
  | .list items => by
    simp only [Value.getProperty]
    exact (items.projectAll name).map fun _ _ same => .list (sameItems_iff_forall₂.mpr same)
  | .money amount currency => by
    simp only [Value.getProperty]
    -- Money has two properties, of which the currency is the same.
    by_cases isAmount : name = "amount"
    · simp only [if_pos isAmount]
      exact .ok (.number amount)
    · simp only [if_neg isAmount]
      by_cases isCurrency : name = "currency"
      · simp only [if_pos isCurrency]
        exact .ok (.text currency)
      · simp only [if_neg isCurrency]
        exact .error trivial

theorem SameItems.projectAll (name : String) {lefts rights : List Value} :
    SameItems lefts rights →
      Alike (fun _ => True) (Forall₂ SameContent) (projectAll name lefts) (projectAll name rights)
  | .nil => .ok .nil
  | .cons item items => by
    simp only [Value.projectAll]
    exact (item.getProperty name).bind fun _ _ found => (items.projectAll name).bind fun _ _ rest =>
      .ok (List.rel_append found.spread rest)

end

/-- Values of one content have contents of one content, or none. -/
theorem SameContent.unwrapOptional {left right : Value} (same : left.SameContent right) :
    Option.Rel SameContent left.unwrapOptional right.unwrapOptional := by
  have whole := same
  cases same with
  | absent => exact .none
  | present inner => exact .some inner
  | _ => exact .some whole

/-- The elements a comprehension runs over with the standard adapters: one optional layer is
removed, nulls are dropped, and a value that is no collection is its own single element. -/
def elements (value : Value) : List Value :=
  match value.unwrapOptional with
  | none | some null => []
  | some (list items) => items.filter (!·.isNull)
  | some (map entries) => (entries.map (·.2)).filter (!·.isNull)
  | some single => [single]

/-- Collections of one content have elements of one content. -/
theorem SameContent.elements {left right : Value} (same : left.SameContent right) :
    Forall₂ SameContent left.elements right.elements := by
  have unwrapped := same.unwrapOptional
  unfold Value.elements
  generalize left.unwrapOptional = found at unwrapped ⊢
  generalize right.unwrapOptional = found' at unwrapped ⊢
  cases unwrapped with
  | none => exact .nil
  | some inner =>
    have single := inner
    cases inner with
    | null => exact .nil
    | list items => exact forall₂_filter_notNull (sameItems_iff_forall₂.mp items)
    | map entries => exact forall₂_filter_notNull entries.values
    | _ => exact .cons single .nil

end Value

namespace AdapterRegistry

theorem wrappers_standard : standard.wrappers = [(0, .optional)] :=
  List.mergeSort_singleton _

/-- What is left of listed elements once their keys are forgotten. -/
theorem map_filter_entries (elements : List (ElementKey × Value)) :
    (elements.filter (!·.2.isNull)).map (·.2) = (elements.map (·.2)).filter (!·.isNull) := by
  rw [List.filter_map]
  rfl

/-- The standard adapters remove one optional layer and find no null in it. -/
theorem unwrap_standard (value : Value) :
    standard.unwrap value = value.unwrapOptional.filter (!·.isNull) := by
  rw [unwrap, wrappers_standard]
  cases value <;> rfl

/-- So they find values of one content in values of one content. -/
theorem unwrap_standard_content {left right : Value} (same : left.SameContent right) :
    Option.Rel Value.SameContent (standard.unwrap left) (standard.unwrap right) := by
  have unwrapped := same.unwrapOptional
  rw [unwrap_standard, unwrap_standard]
  generalize left.unwrapOptional = found at unwrapped ⊢
  generalize right.unwrapOptional = found' at unwrapped ⊢
  cases unwrapped with
  | none => exact .none
  | some inner =>
    have whole := inner
    cases inner with
    | null => exact .none
    | _ => exact .some whole

/-- The standard adapters list the elements of a comprehension, and listing does not fail. -/
theorem elements_standard (value : Value) : standard.elements value = .ok value.elements := by
  rw [elements, unwrap_standard, Value.elements]
  cases value.unwrapOptional with
  | none => rfl
  | some inner =>
    cases inner with
    | list items =>
      have listed : (Value.listElements (.list items)).map (·.2) = items := by
        simp [Value.listElements, Function.comp_def]
      exact congrArg Except.ok ((map_filter_entries _).trans (congrArg (List.filter _) listed))
    | map entries =>
      have listed : (Value.mapElements (.map entries)).map (·.2) = entries.map (·.2) := by
        simp [Value.mapElements, Function.comp_def]
      exact congrArg Except.ok ((map_filter_entries _).trans (congrArg (List.filter _) listed))
    | _ => rfl

end AdapterRegistry

/-- What a call gives, if there is a function of that name. -/
def FunctionRegistry.call? (registry : FunctionRegistry) (name : String) (arguments : List Value)
    (clock : Clock) : Option (Except FunctionError Value) :=
  (registry.find? name).map fun body => body arguments clock

/-- How the result of a call continues the evaluation. -/
def Traced.ofCall (name : String) : Option (Except FunctionError Value) → Traced Value
  | none => .failWith (.unknownFunction name)
  | some (.ok value) => .pure value
  | some (.error (.skip reason)) => .fail (.skip reason)
  | some (.error error) => .failWith (.function name error)

namespace Machine

open Traced (Follows)
open List (Forall₂)
open Value (SameContent)

/-- A position of one value leads to items of one content, or to none. -/
theorem itemAt_content {lefts rights : List Value} {left right : Decimal}
    (items : Forall₂ SameContent lefts rights) (amount : left.SameValue right) :
    Option.Rel SameContent (itemAt lefts left) (itemAt rights right) := by
  unfold itemAt
  rw [Decimal.toInteger?_eq_of_toRat_eq amount]
  cases right.toInteger? with
  | none => exact .none
  | some position =>
    by_cases counted : 0 ≤ position
    · simp only [if_pos counted]
      exact .some (Value.forall₂_getD_null items _)
    · simp only [if_neg counted]
      exact .none

section

variable {halts : Halt → Halt → Prop} {waived : Halt → Prop} {first second : Machine}

/-- Items of values of one content are looked up alike with the standard adapters and access. -/
theorem itemOf_content (ordinary : ∀ halt : Halt, halt.IsOrdinary → halts halt halt)
    (adapters : first.evaluator.adapters = .standard)
    (adapters' : second.evaluator.adapters = .standard)
    (access : first.evaluator.access = .standard) (access' : second.evaluator.access = .standard)
    {left right left' right' : Value} (same : left.SameContent right)
    (same' : left'.SameContent right') :
    Follows ⟨SameContent, halts, waived⟩ SameContent (first.itemOf left left')
      (second.itemOf right right') := by
  have unwrapped := AdapterRegistry.unwrap_standard_content same
  have position := same'.bare
  unfold itemOf
  rw [adapters, adapters', access, access']
  generalize AdapterRegistry.standard.unwrap left = found at unwrapped ⊢
  generalize AdapterRegistry.standard.unwrap right = found' at unwrapped ⊢
  cases unwrapped with
  | none => exact .pure .null
  | some target =>
    have invalid {name text : String} : Follows ⟨SameContent, halts, waived⟩ SameContent
        (.failWith (.invalidIndex name text)) (.failWith (.invalidIndex name text)) :=
      .halt [] (ordinary _ trivial)
    simp only [target.typeName_eq, position.display_eq]
    generalize left'.bare = place at position ⊢
    generalize right'.bare = place' at position ⊢
    -- Positions and targets decide together which look-up it is; all others are invalid.
    cases position with
    | null => cases target <;> exact .pure .null
    | number amount =>
      cases target with
      | list items =>
        have item := itemAt_content (Value.sameItems_iff_forall₂.mp items) amount
        simp only
        generalize itemAt _ _ = value at item ⊢
        generalize itemAt _ _ = value' at item ⊢
        cases item with
        | none => exact invalid
        | some same => exact .pure same
      | _ => exact invalid
    | text key =>
      cases target with
      | map entries => exact .pure (entries.findOrNull key)
      | entity typeName identity fields =>
        exact .lift ordinary ((Value.SameContent.entity typeName identity fields).getProperty key)
      | _ => exact invalid
    | _ => cases target <;> exact invalid

/-- An item is looked up alike by machines with the same adapters and access. -/
theorem itemOf_eq (ordinary : ∀ halt : Halt, halt.IsOrdinary → halts halt halt)
    (adapters : first.evaluator.adapters = second.evaluator.adapters)
    (access : first.evaluator.access = second.evaluator.access) (base position : Value) :
    Follows ⟨Eq, halts, waived⟩ Eq (first.itemOf base position) (second.itemOf base position) := by
  have invalid {name text : String} : Follows (α := Value) ⟨Eq, halts, waived⟩ Eq
      (.failWith (.invalidIndex name text)) (.failWith (.invalidIndex name text)) :=
    .halt [] (ordinary _ trivial)
  unfold itemOf
  rw [adapters, access]
  cases second.evaluator.adapters.unwrap base with
  | none => exact .pure rfl
  | some target =>
    simp only
    split
    next => exact .pure rfl
    next =>
      split
      next => exact .pure rfl
      next => exact invalid
    next => exact .pure rfl
    next => exact .lift ordinary (.refl _ fun _ _ => trivial)
    next => exact invalid

/-- A call continues the evaluation by what the function gives, if there is one. -/
theorem callFunction_eq (machine : Machine) (name : String) (arguments : List Value) :
    machine.callFunction name arguments =
      .ofCall name (machine.evaluator.functions.call? name arguments machine.clock) := by
  unfold callFunction FunctionRegistry.call?
  cases machine.evaluator.functions.find? name with
  | none => rfl
  | some body =>
    simp only [Option.map_some]
    cases body arguments machine.clock with
    | ok value => rfl
    | error error => cases error <;> rfl

/-- The steps of machines with the same adapters, access and powers agree if their calls do. -/
theorem StepsAgree.of_calls (ordinary : ∀ halt : Halt, halt.IsOrdinary → halts halt halt)
    (adapters : first.evaluator.adapters = second.evaluator.adapters)
    (access : first.evaluator.access = second.evaluator.access)
    (powers : first.evaluator.powers = second.evaluator.powers)
    (call : ∀ name arguments, Follows ⟨Eq, halts, waived⟩ Eq
      (.ofCall name (first.evaluator.functions.call? name arguments first.clock))
      (.ofCall name (second.evaluator.functions.call? name arguments second.clock))) :
    StepsAgree ⟨Eq, halts, waived⟩ first second where
  lawful := Agreement.lawful_eq ordinary
  powers := powers
  property {object _} same name := by
    subst same
    rw [access]
    exact .refl _ fun _ _ => trivial
  elements {value _} same := by
    subst same
    rw [adapters, List.forall₂_eq_eq_eq]
    exact .refl _ fun _ _ => trivial
  item same same' := by
    subst same same'
    exact itemOf_eq ordinary adapters access _ _
  call name arguments _ same := by
    rw [List.forall₂_eq_eq_eq] at same
    subst same
    rw [callFunction_eq, callFunction_eq]
    exact call name arguments

/-- Machines with the same adapters, access and powers agree if their calls and their limits do. -/
theorem Agree.of_calls (ordinary : ∀ halt : Halt, halt.IsOrdinary → halts halt halt)
    (adapters : first.evaluator.adapters = second.evaluator.adapters)
    (access : first.evaluator.access = second.evaluator.access)
    (powers : first.evaluator.powers = second.evaluator.powers)
    (limit : waived (.technical (.recursionLimit first.evaluator.maxDepth)) ∨
      halts (.technical (.recursionLimit first.evaluator.maxDepth))
        (.technical (.recursionLimit second.evaluator.maxDepth)))
    (call : ∀ name arguments, Follows ⟨Eq, halts, waived⟩ Eq
      (.ofCall name (first.evaluator.functions.call? name arguments first.clock))
      (.ofCall name (second.evaluator.functions.call? name arguments second.clock))) :
    Agree ⟨Eq, halts, waived⟩ first second :=
  ⟨.of_calls ordinary adapters access powers call, limit⟩

end

end Machine

end Rulebook

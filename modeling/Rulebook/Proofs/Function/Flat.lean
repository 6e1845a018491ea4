import Rulebook.Function.Library
import Rulebook.Proofs.Extraction.Leaves
import Rulebook.Proofs.Value.Sameness

/-!
# Flattening and extraction

Two recursions take nested lists apart: the one of the function `Flat` and the one of extraction.
On values made of lists and scalars alone the first lists what the leaves of the second hold. On any
value its result has no null and no list left in it, so there is nothing to flatten a second time.
-/
namespace Rulebook

namespace Value

/-- Scalars, null among them, and lists of such values, nested to any depth. -/
inductive OfLists : Value → Prop
  | scalar {value : Value} (scalar : value.shape = .scalar) : OfLists value
  | list {items : List Value} (nested : ∀ item ∈ items, OfLists item) : OfLists (.list items)

/-- Neither null nor a list. -/
def IsFlat (value : Value) : Prop :=
  value ≠ .null ∧ ∀ items, value ≠ .list items

/-- What a leaf holds does not depend on the collections around it. -/
theorem map_value_itemLeaves (position : Nat) (items : List Value) :
    (itemLeaves position items).map Leaf.value = items.flatMap fun item =>
      item.leaves.map Leaf.value := by
  induction items generalizing position with
  | nil => rfl
  | cons item items ih =>
    rw [itemLeaves, List.map_append, List.map_map, ih, List.flatMap_cons]
    rfl

end Value

namespace Builtin

variable {value : Value} {items : List Value}

theorem flattenAll_eq (items : List Value) : flattenAll items = items.flatMap flatten := by
  induction items with
  | nil => rfl
  | cons item items ih => rw [flattenAll, ih, List.flatMap_cons]

theorem flatten_list (items : List Value) : flatten (.list items) = items.flatMap flatten := by
  rw [flatten, flattenAll_eq]

theorem flatten_of_isFlat (flat : value.IsFlat) : flatten value = [value] := by
  cases value with
  | null => exact absurd rfl flat.1
  | list items => exact absurd rfl (flat.2 items)
  | _ => rfl

theorem isFlat_of_mem_flatten (value : Value) : ∀ item ∈ flatten value, item.IsFlat := by
  induction value using Value.inductionOnParts with
  | step value ih =>
    intro item member
    cases value with
    | null => cases member
    -- What is left of a list is left of one of its elements.
    | list items =>
      rw [flatten_list] at member
      obtain ⟨nested, listed, within⟩ := List.mem_flatMap.mp member
      exact ih nested listed item within
    | _ =>
      obtain rfl := List.mem_singleton.mp member
      simp [Value.IsFlat]

/-- Nothing in a flat list is taken apart. -/
theorem flatten_list_of_isFlat (flat : ∀ item ∈ items, item.IsFlat) :
    flatten (.list items) = items := by
  rw [flatten_list, List.flatMap_congr fun item member => flatten_of_isFlat (flat item member),
    List.flatMap_singleton']

/-- The leaves of nested lists hold what is left of them after flattening. -/
theorem map_value_leaves (nested : value.OfLists) :
    value.leaves.map Leaf.value = flatten value := by
  induction nested with
  | @scalar value scalar => cases value <;> first | rfl | cases scalar
  | @list items _ ih =>
    rw [Value.leaves, Value.map_value_itemLeaves, flatten_list]
    -- Both recursions take a list apart element by element.
    exact List.flatMap_congr ih

/-- `Flat` and extraction with the standard adapters find the same values in nested lists, in the
same order. Whatever `Flat` is given, its result has no null and no list in it and is its own
flattening. -/
theorem flat_lists_extracted_values :
    FunctionRegistry.builtins.find? "Flat" = some flat ∧
    (∀ value : Value, value.OfLists → ∀ origin clock, ∃ found,
      AdapterRegistry.standard.extract value origin = .ok found ∧
        flat [value] clock = .ok (.list (found.map Instance.value))) ∧
    ∀ value clock, ∃ items, flat [value] clock = .ok (.list items) ∧
      (∀ item ∈ items, item.IsFlat) ∧ flat [.list items] clock = .ok (.list items) := by
  have applied (value : Value) (clock : Clock) :
      flat [value] clock = .ok (.list (flatten value)) := rfl
  refine ⟨rfl, fun value nested origin clock => ?_, fun value clock => ?_⟩
  · refine ⟨_, AdapterRegistry.extract_standard value origin, ?_⟩
    rw [applied, ← map_value_leaves nested, List.map_map]
    rfl
  · have kept := isFlat_of_mem_flatten value
    exact ⟨_, applied value clock, kept, by rw [applied, flatten_list_of_isFlat kept]⟩

/-- Nulls vanish at every depth, and an entity is left as it is. -/
theorem flat_lists_extracted_values_of_drivers :
    let driver := Value.entity "Driver" (some "D1") []
    let drivers := Value.list [.list [.null, .list [driver]], .null, .text "none"]
    drivers.OfLists ∧ ∃ found, AdapterRegistry.standard.extract drivers "Policy" = .ok found ∧
      found.map Instance.value = [driver, .text "none"] ∧
      ∀ clock, flat [drivers] clock = .ok (.list (found.map Instance.value)) := by
  intro driver drivers
  have nested : drivers.OfLists := by
    have scalar {value : Value} (scalar : value.shape = .scalar) : value.OfLists := .scalar scalar
    refine .list (List.forall_mem_cons.mpr ⟨.list ?_, ?_⟩)
    · refine List.forall_mem_cons.mpr ⟨scalar rfl, List.forall_mem_singleton.mpr (.list ?_)⟩
      exact List.forall_mem_singleton.mpr (scalar rfl)
    · exact List.forall_mem_cons.mpr ⟨scalar rfl, List.forall_mem_singleton.mpr (scalar rfl)⟩
  have extracted := AdapterRegistry.extract_standard drivers "Policy"
  refine ⟨nested, _, extracted, rfl, fun clock => ?_⟩
  obtain ⟨_, extracted', flattened⟩ :=
    flat_lists_extracted_values.2.1 drivers nested "Policy" clock
  rw [extracted] at extracted'
  cases extracted'
  exact flattened

end Builtin

end Rulebook

import Rulebook.Value.Basic

/-!
# Adapters

Adapters decide how a value is unwrapped and how a collection is traversed. Of the wrappers that
apply to a value, the one of least priority is consulted, and of several such the one registered
first; a collection is traversed by the adapter registered first for its shape.

Adapters that only hand out parts of the values they are given can be applied to what they handed
out, over and over, and come to an end.
-/
namespace Rulebook

/-- Where an element stood in its collection. -/
inductive ElementKey where
  | index (position : Nat)
  | key (name : String)
deriving DecidableEq, Repr

def ElementKey.text : ElementKey → String
  | .index position => "[" ++ toString position ++ "]"
  | .key name => "['" ++ name ++ "']"

/-- Removes one layer from the values it applies to, or finds nothing inside. -/
structure Wrapper where
  appliesTo : Value → Bool
  unwrap : Value → Option Value

/-- Lists the elements of the collections of one shape. -/
structure Traversal where
  shape : Value.Shape
  elements : Value → List (ElementKey × Value)

namespace Value

def isOptional : Value → Bool
  | absent | present _ => true
  | _ => false

/-- Removes the outermost optional layer. -/
def unwrapOptional : Value → Option Value
  | absent => none
  | present inner => some inner
  | value => some value

/-- The items of a list with their positions. -/
def listElements : Value → List (ElementKey × Value)
  | list items => items.zipIdx.map fun (item, position) => (.index position, item)
  | _ => []

/-- The values of a map with their keys. -/
def mapElements : Value → List (ElementKey × Value)
  | map entries => entries.map fun (name, value) => (.key name, value)
  | _ => []

def isEntityOf (typeName : String) : Value → Bool
  | entity actual _ _ => actual == typeName
  | _ => false

/-- The value of a declared field of an entity. -/
def fieldOf? (name : String) : Value → Option Value
  | entity _ _ fields => Table.find? name fields
  | _ => none

end Value

namespace Wrapper

/-- Unwraps optional values. -/
def optional : Wrapper :=
  ⟨Value.isOptional, Value.unwrapOptional⟩

/-- Applies to everything and finds nothing. -/
def nothing : Wrapper :=
  ⟨fun _ => true, fun _ => none⟩

/-- Unwraps the entities of a type to one of their fields. -/
def holder (typeName field : String) : Wrapper :=
  ⟨Value.isEntityOf typeName, Value.fieldOf? field⟩

end Wrapper

namespace Traversal

def list : Traversal := ⟨.sequence, Value.listElements⟩

def map : Traversal := ⟨.associative, Value.mapElements⟩

/-- Lists from the back; the keys stay the positions. -/
def reversed : Traversal :=
  ⟨.sequence, fun value => (Value.listElements value).reverse⟩

end Traversal

/-- One registration of an adapter. -/
inductive AdapterStep where
  | wrapper (priority : Int) (adapter : Wrapper)
  | traversal (adapter : Traversal)

def AdapterStep.wrapper? : AdapterStep → Option (Int × Wrapper)
  | .wrapper priority adapter => some (priority, adapter)
  | .traversal _ => none

def AdapterStep.traversal? : AdapterStep → Option Traversal
  | .wrapper _ _ => none
  | .traversal adapter => some adapter

/-- Why instances could not be taken from a value. -/
inductive InstanceError where
  | missingTraversal (shape : Value.Shape) (typeName : String)
  | collectionRoot (typeName : String)
  | absentRoot
deriving DecidableEq, Repr

def InstanceError.message : InstanceError → String
  | .missingTraversal shape typeName =>
    "no iterable adapter registered for " ++ shape.name ++ " value of type " ++ typeName
  | .collectionRoot typeName => "evaluation root must be a single entity, found " ++ typeName
  | .absentRoot => "evaluation root is absent"

/-- Wrappers by ascending priority, and traversals in the order of their registration. -/
structure AdapterRegistry where
  wrappers : List (Int × Wrapper)
  traversals : List Traversal

namespace AdapterRegistry

/-- The registry after a sequence of registrations. Sorting keeps the order of equal priorities. -/
def ofSteps (steps : List AdapterStep) : AdapterRegistry where
  wrappers := (steps.filterMap AdapterStep.wrapper?).mergeSort fun left right => left.1 ≤ right.1
  traversals := steps.filterMap AdapterStep.traversal?

/-- Optional values are unwrapped, lists and maps traversed. -/
def standardSteps : List AdapterStep :=
  [.wrapper 0 .optional, .traversal .list, .traversal .map]

def standard : AdapterRegistry := ofSteps standardSteps

/-- Removes one layer if a wrapper applies; a null, or nothing inside, is no value. -/
def unwrap (registry : AdapterRegistry) (value : Value) : Option Value :=
  -- The first that applies decides alone, also when it finds nothing inside.
  let unwrapped := match registry.wrappers.find? fun (_, wrapper) => wrapper.appliesTo value with
    | some (_, wrapper) => wrapper.unwrap value
    | none => some value
  unwrapped.filter (!·.isNull)

/-- The elements of a collection, as the adapter for its shape lists them. -/
def iterate (registry : AdapterRegistry) (value : Value) :
    Except InstanceError (List (ElementKey × Value)) :=
  match registry.traversals.find? fun traversal => traversal.shape == value.shape with
  | some traversal => .ok (traversal.elements value)
  | none => .error (.missingTraversal value.shape value.typeName)

/-- The elements a comprehension runs over: one layer is removed, nulls are dropped, and a value
that is no collection is its own single element. -/
def elements (registry : AdapterRegistry) (value : Value) : Except InstanceError (List Value) :=
  match registry.unwrap value with
  | none => .ok []
  | some value =>
    if value.shape.isCollection then
      (registry.iterate value).map fun elements =>
        (elements.filter (!·.2.isNull)).map (·.2)
    else .ok [value]

end AdapterRegistry

/-! ## Parts -/

/-- What is unwrapped is the value itself or a part of it. -/
def Wrapper.HandsOutParts (wrapper : Wrapper) : Prop :=
  ∀ value part, wrapper.unwrap value = some part → sizeOf part ≤ sizeOf value

/-- What is listed are proper parts of the value. -/
def Traversal.HandsOutParts (traversal : Traversal) : Prop :=
  ∀ value, ∀ entry ∈ traversal.elements value, sizeOf entry.2 < sizeOf value

/-- A layer is larger than what is in it. -/
theorem Wrapper.handsOutParts_optional : optional.HandsOutParts := by
  intro value part unwrapped
  change value.unwrapOptional = some part at unwrapped
  cases value with
  | absent => cases unwrapped
  | present inner =>
    cases unwrapped
    rw [Value.present.sizeOf_spec]
    omega
  | _ =>
    cases unwrapped
    exact Nat.le_refl _

theorem Wrapper.handsOutParts_nothing : nothing.HandsOutParts :=
  fun _ _ => nofun

/-- What a table has under a name is smaller than the table. -/
theorem Value.sizeOf_find?_lt {name : String} {table : Table Value} {value : Value}
    (found : Table.find? name table = some value) : sizeOf value < sizeOf table := by
  induction table with
  | nil => simp [Table.find?] at found
  | cons entry rest ih =>
    obtain ⟨key, item⟩ := entry
    simp only [Table.find?] at found
    split at found
    · simp only [Option.some.injEq] at found
      subst found
      simp only [List.cons.sizeOf_spec, Prod.mk.sizeOf_spec]
      omega
    · have := ih found
      simp only [List.cons.sizeOf_spec]
      omega

theorem Wrapper.handsOutParts_holder (typeName field : String) :
    (holder typeName field).HandsOutParts := by
  intro value part found
  change value.fieldOf? field = some part at found
  cases value <;> simp only [Value.fieldOf?, reduceCtorEq] at found
  have := Value.sizeOf_find?_lt found
  simp only [Value.entity.sizeOf_spec]
  omega

theorem Traversal.handsOutParts_list : list.HandsOutParts := by
  intro value entry member
  change entry ∈ value.listElements at member
  cases value <;> simp only [Value.listElements, List.not_mem_nil] at member
  next items =>
    obtain ⟨⟨item, position⟩, indexed, rfl⟩ := List.mem_map.1 member
    -- An item is smaller than the list of items, and that is smaller than the value.
    have := List.sizeOf_lt_of_mem (List.fst_mem_of_mem_zipIdx indexed)
    simp only [Value.list.sizeOf_spec] at *
    omega

theorem Traversal.handsOutParts_map : map.HandsOutParts := by
  intro value entry member
  change entry ∈ value.mapElements at member
  cases value <;> simp only [Value.mapElements, List.not_mem_nil] at member
  next entries =>
    obtain ⟨⟨name, item⟩, listed, rfl⟩ := List.mem_map.1 member
    have := List.sizeOf_lt_of_mem listed
    simp only [Value.map.sizeOf_spec, Prod.mk.sizeOf_spec] at *
    omega

theorem Traversal.handsOutParts_reversed : reversed.HandsOutParts :=
  fun value entry member => handsOutParts_list value entry (List.mem_reverse.1 member)

def AdapterStep.HandsOutParts : AdapterStep → Prop
  | .wrapper _ adapter => adapter.HandsOutParts
  | .traversal adapter => adapter.HandsOutParts

namespace AdapterRegistry

/-- All adapters hand out parts only. -/
class HandsOutParts (registry : AdapterRegistry) : Prop where
  wrappers : ∀ entry ∈ registry.wrappers, entry.2.HandsOutParts
  traversals : ∀ traversal ∈ registry.traversals, traversal.HandsOutParts

theorem handsOutParts_ofSteps {steps : List AdapterStep}
    (parts : ∀ step ∈ steps, step.HandsOutParts) : (ofSteps steps).HandsOutParts where
  wrappers entry member := by
    obtain ⟨step, registered, kind⟩ := List.mem_filterMap.1 (List.mem_mergeSort.1 member)
    cases step <;> cases kind
    exact parts _ registered
  traversals traversal member := by
    obtain ⟨step, registered, kind⟩ := List.mem_filterMap.1 member
    cases step <;> cases kind
    exact parts _ registered

instance handsOutParts_standard : standard.HandsOutParts := by
  apply handsOutParts_ofSteps
  intro step registered
  simp only [standardSteps, List.mem_cons, List.not_mem_nil, or_false] at registered
  rcases registered with rfl | rfl | rfl
  · exact Wrapper.handsOutParts_optional
  · exact Traversal.handsOutParts_list
  · exact Traversal.handsOutParts_map

section

variable (registry : AdapterRegistry) [parts : registry.HandsOutParts]

/-- So is what the registry unwraps: the value itself or a part of it. -/
theorem unwrap_size {value part : Value} (unwrapped : registry.unwrap value = some part) :
    sizeOf part ≤ sizeOf value := by
  simp only [unwrap, Option.filter_eq_some_iff] at unwrapped
  obtain ⟨found, _⟩ := unwrapped
  split at found
  next consulted => exact parts.wrappers _ (List.mem_of_find?_eq_some consulted) value part found
  next => exact Option.some.inj found ▸ Nat.le_refl _

/-- What the registry lists are proper parts. -/
theorem iterate_size {value : Value} {elements : List (ElementKey × Value)}
    (iterated : registry.iterate value = .ok elements) {entry : ElementKey × Value}
    (member : entry ∈ elements) : sizeOf entry.2 < sizeOf value := by
  simp only [iterate] at iterated
  split at iterated
  next consulted =>
    cases iterated
    exact parts.traversals _ (List.mem_of_find?_eq_some consulted) value entry member
  next => cases iterated

end

end AdapterRegistry

end Rulebook

import Rulebook.Extraction.Instance
import Rulebook.Proofs.Evaluation.Part

/-!
# The leaves of a value

The leaves of a value are defined by recursion on the value alone, each with the keys of the
collections around it, from the outermost to the innermost. The standard adapters extract these
leaves in order: they open and traverse exactly what the recursion opens and descends into. The
recursion descends into the elements of a collection, so the correspondence goes by induction on
the value, and an element keeps the key under which it was listed only if it is a leaf itself.
-/
namespace Rulebook

/-- A value that is no collection, and the keys of the collections it stands in. -/
structure Leaf where
  keys : List ElementKey
  value : Value

namespace Leaf

/-- The leaf as seen from a collection around. -/
def under (key : ElementKey) (leaf : Leaf) : Leaf :=
  ⟨key :: leaf.keys, leaf.value⟩

/-- Where the leaf stands, seen from the place of the whole value. -/
def place (origin : String) (leaf : Leaf) : String :=
  origin ++ String.join (leaf.keys.map ElementKey.text)

/-- An entity with an identity is named by its type and identity, anything else by its place. -/
def identity (origin : String) (leaf : Leaf) : String :=
  match leaf.value with
  | .entity typeName (some identity) _ => typeName ++ ":" ++ identity
  | _ => leaf.place origin

/-- The instance for the leaf, with its key in the innermost collection. -/
def found (origin : String) (leaf : Leaf) : Instance :=
  ⟨leaf.value, leaf.place origin, leaf.keys.getLast?⟩

theorem place_under (origin : String) (key : ElementKey) (leaf : Leaf) :
    (leaf.under key).place origin = leaf.place (origin ++ key.text) := by
  simp [place, under, String.join_cons, String.append_assoc]

/-- Inside a further collection the key of the innermost one stays. -/
theorem found_under (origin : String) (key : ElementKey) {leaf : Leaf} (inside : leaf.keys ≠ []) :
    (leaf.under key).found origin = leaf.found (origin ++ key.text) := by
  rw [found, found, place_under]
  simp [under, List.getLast?_cons_of_ne_nil inside]

theorem found_under_nil (origin : String) (key : ElementKey) (value : Value) :
    (under key ⟨[], value⟩).found origin = ⟨value, origin ++ key.text, some key⟩ := by
  simp [found, place, under, String.join]

end Leaf

namespace Value

mutual

/-- The leaves in order. An optional value holds the leaves of the collection in it, or else what
is in it as one leaf, unless that is null. -/
def leaves : Value → List Leaf
  | null | absent => []
  | present inner =>
    if inner.shape.isCollection then leaves inner
    else if inner.isNull then []
    else [⟨[], inner⟩]
  | list items => itemLeaves 0 items
  | map entries => entryLeaves entries
  | leaf => [⟨[], leaf⟩]

def itemLeaves (position : Nat) : List Value → List Leaf
  | [] => []
  | item :: items =>
    (leaves item).map (Leaf.under (.index position)) ++ itemLeaves (position + 1) items

def entryLeaves : List (String × Value) → List Leaf
  | [] => []
  | (name, value) :: entries => (leaves value).map (Leaf.under (.key name)) ++ entryLeaves entries

end

/-! ### Leaves are no collections -/

mutual

theorem single_of_mem_leaves : ∀ (value : Value) {leaf : Leaf}, leaf ∈ value.leaves →
    leaf.value.isNull = false ∧ leaf.value.shape.isCollection = false
  | null, _, member | absent, _, member => by cases member
  | present inner, leaf, member => by
    rw [leaves] at member
    -- A leaf under a layer is a leaf of the collection in it, or what is in it.
    split at member
    · exact single_of_mem_leaves inner member
    · next single =>
      split at member
      · cases member
      · next some_inner =>
        obtain rfl := List.mem_singleton.mp member
        exact ⟨Bool.eq_false_of_not_eq_true some_inner, Bool.eq_false_of_not_eq_true single⟩
  | list items, _, member => single_of_mem_itemLeaves items member
  | map entries, _, member => single_of_mem_entryLeaves entries member
  | bool _, _, member | number _, _, member | text _, _, member | date _, _, member
  | dateTime _, _, member | money _ _, _, member | entity _ _ _, _, member => by
    obtain rfl := List.mem_singleton.mp member
    exact ⟨rfl, rfl⟩

theorem single_of_mem_itemLeaves : ∀ (items : List Value) {position : Nat} {leaf : Leaf},
    leaf ∈ itemLeaves position items →
      leaf.value.isNull = false ∧ leaf.value.shape.isCollection = false
  | [], _, _, member => by cases member
  | item :: items, _, _, member => by
    rcases List.mem_append.mp member with member | member
    · obtain ⟨inner, listed, rfl⟩ := List.mem_map.mp member
      have single := single_of_mem_leaves item listed
      exact single
    · exact single_of_mem_itemLeaves items member

theorem single_of_mem_entryLeaves : ∀ (entries : List (String × Value)) {leaf : Leaf},
    leaf ∈ entryLeaves entries →
      leaf.value.isNull = false ∧ leaf.value.shape.isCollection = false
  | [], _, member => by cases member
  | (_, value) :: entries, _, member => by
    rcases List.mem_append.mp member with member | member
    · obtain ⟨inner, listed, rfl⟩ := List.mem_map.mp member
      have single := single_of_mem_leaves value listed
      exact single
    · exact single_of_mem_entryLeaves entries member

end

end Value

namespace AdapterRegistry

/-- The leaves in one element of a collection. -/
def elementLeaves (registry : AdapterRegistry) [registry.HandsOutParts] (origin : String)
    (key : ElementKey) (element : Value) : Except InstanceError (List Instance) :=
  if element.isNull then .ok []
  else if element.shape.isCollection then registry.leaves (origin ++ key.text) element
  else
    match registry.unwrap element with
    | none => .ok []
    | some value =>
      if value.shape.isCollection then registry.leaves (origin ++ key.text) value
      else .ok [⟨value, origin ++ key.text, some key⟩]

/-- The instances of a collection are those of its elements, one element after the other. -/
theorem leaves_eq (registry : AdapterRegistry) [registry.HandsOutParts] (origin : String)
    (collection : Value) :
    registry.leaves origin collection = do
      let elements ← registry.iterate collection
      let found ← elements.mapM fun entry => registry.elementLeaves origin entry.1 entry.2
      return found.flatten := by
  rw [leaves]
  split
  next failure iterated => rw [iterated]; rfl
  next elements iterated =>
    rw [iterated]
    -- The traversal carries a proof that elements are smaller, which the leaves do not depend on.
    have attached : elements.mapM (fun entry => registry.elementLeaves origin entry.1 entry.2) =
        elements.attach.mapM fun entry => registry.elementLeaves origin entry.1.1 entry.1.2 := by
      conv_lhs => rw [← List.attach_map_subtype_val elements]
      rw [List.mapM_map]
      rfl
    simp only [bind, Except.bind, attached]
    congr 2
    funext entry
    obtain ⟨⟨key, element⟩, member⟩ := entry
    simp only [elementLeaves]
    congr 2
    cases registry.unwrap element <;> rfl

end AdapterRegistry

/-! ### Collections -/

namespace Value

theorem isNull_of_isCollection {value : Value} (collects : value.shape.isCollection = true) :
    value.isNull = false := by
  cases value <;> first | rfl | cases collects

theorem itemLeaves_eq (position : Nat) (items : List Value) :
    itemLeaves position items =
      ((items.zipIdx position).map fun (item, index) => (ElementKey.index index, item)).flatMap
        fun entry => entry.2.leaves.map (Leaf.under entry.1) := by
  induction items generalizing position with
  | nil => rfl
  | cons item items ih =>
    rw [itemLeaves, ih, List.zipIdx_cons, List.map_cons, List.flatMap_cons]

theorem entryLeaves_eq (entries : List (String × Value)) :
    entryLeaves entries =
      (entries.map fun (name, value) => (ElementKey.key name, value)).flatMap
        fun entry => entry.2.leaves.map (Leaf.under entry.1) := by
  induction entries with
  | nil => rfl
  | cons entry entries ih => rw [entryLeaves, ih, List.map_cons, List.flatMap_cons]

/-- The leaves of a collection are those of the elements that the standard adapters list. -/
theorem exists_elements (collection : Value) (collects : collection.shape.isCollection = true) :
    ∃ elements, AdapterRegistry.standard.iterate collection = .ok elements ∧
      collection.leaves =
        elements.flatMap fun entry => entry.2.leaves.map (Leaf.under entry.1) := by
  cases collection with
  | list items => exact ⟨listElements (.list items), rfl, itemLeaves_eq 0 items⟩
  | map entries => exact ⟨mapElements (.map entries), rfl, entryLeaves_eq entries⟩
  | _ => cases collects

theorem keys_ne_nil {collection : Value} (collects : collection.shape.isCollection = true)
    {leaf : Leaf} (member : leaf ∈ collection.leaves) : leaf.keys ≠ [] := by
  obtain ⟨elements, -, listed⟩ := exists_elements collection collects
  rw [listed, List.mem_flatMap] at member
  obtain ⟨entry, -, member⟩ := member
  obtain ⟨inner, -, rfl⟩ := List.mem_map.mp member
  exact List.cons_ne_nil _ _

theorem map_found_under {collection : Value} (collects : collection.shape.isCollection = true)
    (origin : String) (key : ElementKey) :
    (collection.leaves.map (Leaf.under key)).map (Leaf.found origin) =
      collection.leaves.map (Leaf.found (origin ++ key.text)) := by
  rw [List.map_map]
  exact List.map_congr_left fun leaf member =>
    Leaf.found_under origin key (keys_ne_nil collects member)

end Value

namespace AdapterRegistry

theorem mapM_eq_ok {α β ε : Type} {apply : α → Except ε β} {result : α → β} {elements : List α}
    (each : ∀ element ∈ elements, apply element = .ok (result element)) :
    elements.mapM apply = .ok (elements.map result) := by
  induction elements with
  | nil => rfl
  | cons element rest ih =>
    obtain ⟨first, others⟩ := List.forall_mem_cons.mp each
    rw [List.mapM_cons, first, ih others]
    rfl

theorem elementLeaves_collection (registry : AdapterRegistry) [registry.HandsOutParts]
    (origin : String) (key : ElementKey) {element : Value}
    (collects : element.shape.isCollection = true) :
    registry.elementLeaves origin key element = registry.leaves (origin ++ key.text) element := by
  simp [elementLeaves, Value.isNull_of_isCollection collects, collects]

/-- A present value is taken out of its layer first. -/
theorem elementLeaves_present (origin : String) (key : ElementKey) (inner : Value) :
    standard.elementLeaves origin key (.present inner) =
      if inner.isNull then .ok []
      else if inner.shape.isCollection then standard.leaves (origin ++ key.text) inner
      else .ok [⟨inner, origin ++ key.text, some key⟩] := by
  have unwrapped : standard.unwrap (.present inner) =
      (some inner).filter (!·.isNull) := unwrap_standard _
  rw [elementLeaves, unwrapped, Option.filter_some]
  cases inner.isNull <;> rfl

/-- The standard adapters find the leaves of an element if they find those of the collections that
are no larger. -/
theorem elementLeaves_standard (origin : String) (key : ElementKey) (element : Value)
    (opened : ∀ part : Value, sizeOf part ≤ sizeOf element → part.shape.isCollection = true →
      standard.leaves (origin ++ key.text) part =
        .ok (part.leaves.map (Leaf.found (origin ++ key.text)))) :
    standard.elementLeaves origin key element =
      .ok ((element.leaves.map (Leaf.under key)).map (Leaf.found origin)) := by
  -- Collections are opened under the key of the element.
  have collection (part : Value) (smaller : sizeOf part ≤ sizeOf element)
      (collects : part.shape.isCollection = true) :
      standard.leaves (origin ++ key.text) part =
        .ok ((part.leaves.map (Leaf.under key)).map (Leaf.found origin)) := by
    rw [opened part smaller collects, Value.map_found_under collects]
  cases element with
  | list items =>
    rw [elementLeaves_collection _ _ _ rfl]
    exact collection _ (Nat.le_refl _) rfl
  | map entries =>
    rw [elementLeaves_collection _ _ _ rfl]
    exact collection _ (Nat.le_refl _) rfl
  | present inner =>
    rw [elementLeaves_present, Value.leaves]
    by_cases collects : inner.shape.isCollection = true
    · simp only [Value.isNull_of_isCollection collects, collects, Bool.false_eq_true, if_false,
        if_true]
      exact collection inner (by simp) collects
    · simp only [collects, if_false, Bool.false_eq_true]
      split
      · rfl
      · simp [Leaf.found_under_nil]
  | null => rfl
  | absent =>
    rw [elementLeaves, unwrap_standard]
    rfl
  | _ =>
    rw [elementLeaves, unwrap_standard, Value.leaves, List.map_singleton, List.map_singleton,
      Leaf.found_under_nil]
    · rfl
    all_goals nofun

/-- The standard adapters find the leaves of a collection. -/
theorem leaves_standard (origin : String) (collection : Value)
    (collects : collection.shape.isCollection = true) :
    standard.leaves origin collection = .ok (collection.leaves.map (Leaf.found origin)) := by
  obtain ⟨elements, iterated, listed⟩ := collection.exists_elements collects
  have each (entry) (member : entry ∈ elements) : standard.elementLeaves origin entry.1 entry.2 =
      .ok ((entry.2.leaves.map (Leaf.under entry.1)).map (Leaf.found origin)) :=
    elementLeaves_standard origin entry.1 entry.2 fun part smaller collects' =>
      -- What an element holds is smaller than the collection, so the recursion ends.
      have := standard.iterate_size iterated member
      leaves_standard (origin ++ entry.1.text) part collects'
  rw [leaves_eq, iterated, listed, List.map_flatMap]
  simp only [bind, Except.bind, mapM_eq_ok each, List.flatMap_def]
  rfl
termination_by sizeOf collection

theorem extract_standard (value : Value) (origin : String) :
    standard.extract value origin = .ok (value.leaves.map (Leaf.found origin)) := by
  have whole (leaf : Value) : (⟨leaf, origin, none⟩ : Instance) = Leaf.found origin ⟨[], leaf⟩ := by
    simp [Leaf.found, Leaf.place, String.join]
  rw [extract, unwrap_standard]
  cases value with
  | null => rfl
  | absent => rfl
  | list items => exact leaves_standard origin (.list items) rfl
  | map entries => exact leaves_standard origin (.map entries) rfl
  | present inner =>
    rw [Value.unwrapOptional, Option.filter_some, Value.leaves]
    by_cases collects : inner.shape.isCollection = true
    · simp only [Value.isNull_of_isCollection collects, collects, Bool.not_false, if_true]
      exact leaves_standard origin inner collects
    -- A single value in a layer is a leaf, unless it is null.
    · cases empty : inner.isNull <;> simp [collects, whole]
  | _ =>
    rw [Value.leaves, List.map_singleton, ← whole]
    · rfl
    all_goals nofun

/-- Extraction with the standard adapters never fails and lists the leaves of the value in order.
Each instance holds its leaf, which is no null, no list and no map, with the key of the innermost
collection around it. It is named by type and identity if it is an entity with an identity, and
otherwise by the origin and the keys of all collections around it from the outermost on. -/
theorem extraction_lists_leaves (value : Value) (origin : String) :
    ∃ found, standard.extract value origin = .ok found ∧
      (found.map fun single => (single.value, single.key, single.id)) =
        (value.leaves.map fun leaf => (leaf.value, leaf.keys.getLast?, leaf.identity origin)) ∧
      ∀ single ∈ found,
        single.value.isNull = false ∧ single.value.shape.isCollection = false := by
  refine ⟨_, extract_standard value origin, ?_, fun single member => ?_⟩
  · rw [List.map_map]
    rfl
  · obtain ⟨leaf, listed, rfl⟩ := List.mem_map.mp member
    exact value.single_of_mem_leaves listed

/-- A list in an optional layer in a map is taken apart, two layers around a text leave one. -/
theorem extraction_lists_leaves_of_limits :
    ∃ found, standard.extract (.map [("limits", .present (.list [.null, .bool true])),
        ("names", .present (.present (.text "a")))]) "quote" = .ok found ∧
      (found.map fun single => (single.value, single.key, single.id)) =
        [(.bool true, some (.index 1), "quote['limits'][1]"),
          (.present (.text "a"), some (.key "names"), "quote['names']")] ∧
      ∀ single ∈ found,
        single.value.isNull = false ∧ single.value.shape.isCollection = false := by
  obtain ⟨found, extracted, listed, singles⟩ := extraction_lists_leaves
    (.map [("limits", .present (.list [.null, .bool true])),
      ("names", .present (.present (.text "a")))]) "quote"
  exact ⟨found, extracted, listed, singles⟩

end AdapterRegistry

end Rulebook

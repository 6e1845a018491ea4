import Rulebook.Evaluation.Property
import Rulebook.Proofs.Value.Sameness

/-!
# Projection of lists

A property of a list is put together from the same property of its items. Two lists one behind the
other are projected one after the other, and a list among the items is projected like its items in
its place. So lists in a list make no difference: it is projected as if they were opened.

In the end the property is read of the objects that stand in the lists and optional layers, and what
they have under the name is spread out. A null that an object has there is dropped, but the items of
a list that it has there are taken over as they are, and nulls may be among them.
-/
namespace Rulebook

namespace Value

/-! ## Lists in a list -/

mutual

/-- What stands in the place of an item when lists are opened. -/
def opened : Value → List Value
  | list items => openedItems items
  | value => [value]

/-- The items of a list with the lists among them opened, at any depth. -/
def openedItems : List Value → List Value
  | [] => []
  | item :: items => opened item ++ openedItems items

end

mutual

theorem ne_list_of_mem_opened {item : Value} : ∀ {value : Value}, item ∈ opened value →
    ∀ inner, item ≠ list inner
  | list _, member => ne_list_of_mem_openedItems member
  | null, member | bool _, member | number _, member | text _, member | date _, member
  | dateTime _, member | money _ _, member | map _, member | absent, member | present _, member
  | entity _ _ _, member => by
    cases List.mem_singleton.mp member
    exact nofun

theorem ne_list_of_mem_openedItems {item : Value} : ∀ {items : List Value},
    item ∈ openedItems items → ∀ inner, item ≠ list inner
  | _ :: _, member =>
    (List.mem_append.mp member).elim ne_list_of_mem_opened ne_list_of_mem_openedItems

end

theorem projectAll_nil (name : String) : projectAll name [] = pure [] := rfl

theorem projectAll_append (name : String) (first second : List Value) :
    projectAll name (first ++ second) = (do
      let found ← projectAll name first
      let rest ← projectAll name second
      return found ++ rest) := by
  induction first with
  | nil => rw [List.nil_append, projectAll_nil, pure_bind]; exact (bind_pure _).symm
  | cons item items ih =>
    simp only [List.cons_append, projectAll, ih, bind_assoc, pure_bind, List.append_assoc]

theorem projectAll_singleton (name : String) (item : Value) :
    projectAll name [item] = (getProperty name item).map spread := by
  rw [projectAll, projectAll_nil]
  cases getProperty name item with
  | ok value => exact congrArg Except.ok (List.append_nil _)
  | error error => rfl

mutual

theorem projectAll_opened (name : String) : ∀ item : Value,
    projectAll name (opened item) = projectAll name [item]
  | list items => by
    -- What a list among the items yields is a list again, and that is spread out in its place.
    rw [opened, projectAll_openedItems name items, projectAll_singleton, getProperty]
    cases projectAll name items <;> rfl
  | null | bool _ | number _ | text _ | date _ | dateTime _ | money _ _ | map _ | absent
  | present _ | entity _ _ _ => rfl

theorem projectAll_openedItems (name : String) : ∀ items : List Value,
    projectAll name (openedItems items) = projectAll name items
  | [] => rfl
  | item :: items => by
    rw [openedItems, projectAll_append, projectAll_opened name item,
      projectAll_openedItems name items, ← projectAll_append, List.singleton_append]

end

/-! ## Objects in lists and layers -/

mutual

/-- The values in lists and optional layers, however these are nested, in order. -/
def objects : Value → List Value
  | list items => itemObjects items
  | present inner => objects inner
  | value => [value]

def itemObjects : List Value → List Value
  | [] => []
  | item :: items => objects item ++ itemObjects items

end

theorem projectAll_of_object (name : String) {object : Value} (alone : objects object = [object]) :
    projectAll name [object] = (do
      let found ← (objects object).mapM (getProperty name)
      return found.flatMap spread) := by
  rw [alone, projectAll, projectAll_nil, List.mapM_cons, List.mapM_nil]
  simp only [bind_assoc, pure_bind, List.flatMap_cons, List.flatMap_nil]

mutual

theorem projectAll_singleton_eq (name : String) : ∀ value : Value,
    projectAll name [value] = (do
      let found ← (objects value).mapM (getProperty name)
      return found.flatMap spread)
  | list items => by
    rw [projectAll_singleton, getProperty, objects, ← projectAll_eq name items]
    cases projectAll name items <;> rfl
  | present inner => by
    rw [projectAll_singleton, getProperty, objects, ← projectAll_singleton_eq name inner,
      projectAll_singleton]
  | null | bool _ | number _ | text _ | date _ | dateTime _ | money _ _ | map _ | absent
  | entity _ _ _ => projectAll_of_object name rfl

/-- A list is projected by reading the property of all objects in it and spreading out what is
found. -/
theorem projectAll_eq (name : String) : ∀ items : List Value,
    projectAll name items = (do
      let found ← (itemObjects items).mapM (getProperty name)
      return found.flatMap spread)
  | [] => rfl
  | item :: items => by
    -- The objects of the item come first, and reading them fails first.
    rw [← List.singleton_append, projectAll_append, projectAll_singleton_eq name item,
      projectAll_eq name items, List.singleton_append, itemObjects, List.mapM_append]
    simp only [bind_assoc, pure_bind, List.flatMap_append]

end

/-- Neither a list nor an optional layer around a value. -/
def IsObject : Value → Prop
  | list _ | present _ => False
  | _ => True

mutual

theorem isObject_of_mem_objects {object : Value} : ∀ {value : Value}, object ∈ objects value →
    object.IsObject
  | list _, member => isObject_of_mem_itemObjects member
  | present inner, member => isObject_of_mem_objects (show object ∈ objects inner from member)
  | null, member | bool _, member | number _, member | text _, member | date _, member
  | dateTime _, member | money _ _, member | map _, member | absent, member
  | entity _ _ _, member => by
    cases List.mem_singleton.mp member
    trivial

theorem isObject_of_mem_itemObjects {object : Value} : ∀ {items : List Value},
    object ∈ itemObjects items → object.IsObject
  | _ :: _, member =>
    (List.mem_append.mp member).elim isObject_of_mem_objects isObject_of_mem_itemObjects

end

/-! ## Nulls in projections -/

theorem null_mem_spread_iff (value : Value) :
    null ∈ spread value ↔ ∃ kept, value = list kept ∧ null ∈ kept := by
  cases value <;> simp [spread]

/-- An object that has a list as its property keeps this list under the name. -/
theorem getProperty_eq_list_iff {object : Value} (isObject : object.IsObject) (name : String)
    (kept : List Value) : getProperty name object = .ok (list kept) ↔
      Table.find? name object.entries = some (list kept) := by
  -- Only maps and entities keep anything under a name, and money answers with no list.
  cases object with
  | list _ | present _ => exact isObject.elim
  | map entries =>
    rw [getProperty, Except.ok.injEq, Value.entries]
    cases Table.find? name entries <;> simp
  | entity typeName identity fields =>
    rw [getProperty, Value.entries]
    cases Table.find? name fields <;> simp
  | money amount currency =>
    rw [getProperty]
    split_ifs <;> exact iff_of_false nofun nofun
  | null | bool _ | number _ | text _ | date _ | dateTime _ | absent =>
    exact iff_of_false nofun nofun

theorem mem_iff_of_mapM {α β ε : Type} {apply : α → Except ε β} {elements : List α}
    {results : List β} (applied : elements.mapM apply = .ok results) (result : β) :
    result ∈ results ↔ ∃ element ∈ elements, apply element = .ok result := by
  induction elements generalizing results with
  | nil =>
    cases applied
    simp
  -- Results exist only if no element fails, so the two failing cases contradict.
  | cons element rest ih =>
    rw [List.mapM_cons] at applied
    cases first : apply element with
    | error error => rw [first] at applied; cases applied
    | ok head =>
      cases further : rest.mapM apply with
      | error error => rw [first, further] at applied; cases applied
      | ok others =>
        rw [first, further] at applied
        cases applied
        simp [first, ih further, eq_comm]

theorem null_mem_of_projectAll {name : String} {items found : List Value}
    (projected : projectAll name items = .ok found) :
    null ∈ found ↔ ∃ object ∈ itemObjects items, ∃ kept,
      Table.find? name object.entries = some (list kept) ∧ null ∈ kept := by
  rw [projectAll_eq] at projected
  cases read : (itemObjects items).mapM (getProperty name) with
  | error error => rw [read] at projected; cases projected
  | ok values =>
    rw [read] at projected
    cases projected
    -- Spreading leaves out a null that was found, so one that is left stood in a list.
    calc null ∈ values.flatMap spread
        ↔ ∃ kept, list kept ∈ values ∧ null ∈ kept := by
          simp only [List.mem_flatMap, null_mem_spread_iff]
          exact ⟨fun ⟨_, member, kept, same, inside⟩ => ⟨kept, same ▸ member, inside⟩,
            fun ⟨kept, member, inside⟩ => ⟨_, member, kept, rfl, inside⟩⟩
      _ ↔ ∃ object ∈ itemObjects items, ∃ kept,
            getProperty name object = .ok (list kept) ∧ null ∈ kept := by
          simp only [mem_iff_of_mapM read]
          exact ⟨fun ⟨kept, ⟨object, member, same⟩, inside⟩ => ⟨object, member, kept, same, inside⟩,
            fun ⟨object, member, kept, same, inside⟩ => ⟨kept, ⟨object, member, same⟩, inside⟩⟩
      _ ↔ ∃ object ∈ itemObjects items, ∃ kept,
            Table.find? name object.entries = some (list kept) ∧ null ∈ kept := by
          refine exists_congr fun object => and_congr_right fun member => ?_
          simp only [getProperty_eq_list_iff (isObject_of_mem_itemObjects member)]

end Value

open Value

namespace PropertyAccess

theorem get_list (name : String) (items : List Value) :
    standard.get (list items) name = (projectAll name items).map list := rfl

theorem get_list_eq_ok_iff {name : String} {items : List Value} {value : Value} :
    standard.get (list items) name = .ok value ↔
      ∃ found, projectAll name items = .ok found ∧ value = list found := by
  rw [get_list]
  cases projectAll name items <;> simp [Except.map, eq_comm]

theorem get_list_eq_error_iff {name : String} {items : List Value} {error : PropertyError} :
    standard.get (list items) name = .error error ↔ projectAll name items = .error error := by
  rw [get_list]
  cases projectAll name items <;> simp [Except.map]

/-- A projected list has a null in it just if some object that stands in lists and optional layers
of the list keeps a list with a null under the name. -/
theorem null_mem_projection_iff (name : String) (items : List Value) (value : Value)
    (read : standard.get (list items) name = .ok value) :
    ∃ found, value = list found ∧
      (null ∈ found ↔ ∃ object ∈ itemObjects items, ∃ kept,
        Table.find? name object.entries = some (list kept) ∧ null ∈ kept) := by
  obtain ⟨found, projected, rfl⟩ := get_list_eq_ok_iff.mp read
  exact ⟨found, rfl, null_mem_of_projectAll projected⟩

/-- Of three objects, one of them in a list and a layer, one has null under the name, which is
dropped, one has nothing, and one has a list with a null, which stays. -/
theorem null_mem_projection_iff_of_limits :
    let items : List Value := [map [("limit", null)],
      list [present (map [("limit", list [number .one, null])])], map []]
    standard.get (list items) "limit" = .ok (list [number .one, null]) ∧
      ∃ object ∈ itemObjects items, ∃ kept,
        Table.find? "limit" object.entries = some (list kept) ∧ null ∈ kept := by
  intro items
  have read : standard.get (list items) "limit" = .ok (list [number .one, null]) := rfl
  obtain ⟨found, same, nulls⟩ := null_mem_projection_iff "limit" items _ read
  cases same
  exact ⟨read, nulls.mp (.tail _ (.head _))⟩

/-- The limits of the only item are a list with a null in it, and so is the projection. -/
theorem projection_keeps_null :
    ¬ ∀ (items found : List Value) (name : String),
      standard.get (list items) name = .ok (list found) → null ∉ found := by
  intro absent
  have read : standard.get (list [map [("limits", list [null, number .one])]]) "limits" =
      .ok (list [null, number .one]) := rfl
  exact absent _ _ _ read List.mem_cons_self

/-- A list is projected as if all lists in it were opened, with the same failure if it fails; and a
list behind another one is projected behind it, unless one of them fails, the first one first. -/
theorem projection_ignores_nesting (name : String) :
    (∀ items, (∀ item ∈ openedItems items, ∀ inner, item ≠ list inner) ∧
      standard.get (list items) name = standard.get (list (openedItems items)) name) ∧
    ∀ first second,
      (∀ value value', standard.get (list first) name = .ok value →
        standard.get (list second) name = .ok value' →
        ∃ found found', value = list found ∧ value' = list found' ∧
          standard.get (list (first ++ second)) name = .ok (list (found ++ found'))) ∧
      (∀ error, standard.get (list first) name = .error error →
        standard.get (list (first ++ second)) name = .error error) ∧
      ∀ value error, standard.get (list first) name = .ok value →
        standard.get (list second) name = .error error →
        standard.get (list (first ++ second)) name = .error error := by
  refine ⟨fun items => ⟨fun _ => ne_list_of_mem_openedItems, ?opened⟩,
    fun first second => ⟨?both, ?failsFirst, ?failsSecond⟩⟩
  case opened => rw [get_list, get_list, projectAll_openedItems]
  case both =>
    intro value value' read read'
    obtain ⟨found, projected, rfl⟩ := get_list_eq_ok_iff.mp read
    obtain ⟨found', projected', rfl⟩ := get_list_eq_ok_iff.mp read'
    refine ⟨found, found', rfl, rfl, get_list_eq_ok_iff.mpr ⟨found ++ found', ?_, rfl⟩⟩
    rw [projectAll_append, projected, projected']
    rfl
  case failsFirst =>
    intro error read
    rw [get_list_eq_error_iff] at read ⊢
    rw [projectAll_append, read]
    rfl
  case failsSecond =>
    intro value error read read'
    obtain ⟨found, projected, _⟩ := get_list_eq_ok_iff.mp read
    rw [get_list_eq_error_iff] at read' ⊢
    rw [projectAll_append, projected, read']
    rfl

/-- The first list holds limits in lists within lists. In the second one an entity has no limit,
which is the failure of both together. -/
theorem projection_ignores_nesting_of_limits :
    let limited (amount : Decimal) : Value := map [("limit", number amount)]
    let nested : List Value := [list [limited .one, list [map [], limited .zero]], limited .one]
    let failing : List Value := [limited .one, list [entity "Coverage" none []], text "none"]
    let missing : PropertyError := .undefined "limit" "Coverage"
    standard.get (list nested) "limit" =
        standard.get (list [limited .one, map [], limited .zero, limited .one]) "limit" ∧
      standard.get (list nested) "limit" = .ok (list [number .one, number .zero, number .one]) ∧
      standard.get (list failing) "limit" = .error missing ∧
      standard.get (list (nested ++ failing)) "limit" = .error missing := by
  intro limited nested failing missing
  obtain ⟨opened, joined⟩ := projection_ignores_nesting "limit"
  obtain ⟨_, _, failsSecond⟩ := joined nested failing
  have read : standard.get (list nested) "limit" =
      .ok (list [number .one, number .zero, number .one]) := rfl
  have fails : standard.get (list failing) "limit" = .error missing := rfl
  exact ⟨(opened nested).2, read, fails, failsSecond _ _ read fails⟩

end PropertyAccess

end Rulebook

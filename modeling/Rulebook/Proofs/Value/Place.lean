import Rulebook.Evaluation.Assignment

/-!
# Places in values

A step of a path names a slot of a container: a property and a quoted key of one text name the same
slot. A frame is all of a container but the value at one place of it, so two containers with the
same frame differ in nothing else. What a step finds and what is replaced are described by frames,
which tells at once what is found after a replacement, and what a second replacement does.
-/
namespace Rulebook

/-- A container or an optional layer without the value at one place in it. -/
inductive Frame where
  | layer
  | item (front back : List Value)
  | entry (front : Table Value) (key : String) (back : Table Value)
  | field (typeName : String) (identity : Option String) (front : Table Value) (name : String)
      (back : Table Value)

namespace Frame

/-- The container with a value at that place. -/
def around : Frame → Value → Value
  | layer, inner => .present inner
  | item front back, inner => .list (front ++ inner :: back)
  | entry front key back, inner => .map (front ++ (key, inner) :: back)
  | field typeName identity front name back, inner =>
    .entity typeName identity (front ++ (name, inner) :: back)

/-- Whether the place is the slot of a container that is so selected. -/
def IsAt : Frame → Slot → Prop
  | item front _, .placed position => front.length = position
  | entry front key _, .named name | field _ _ front key _, .named name =>
    key = name ∧ name ∉ Table.names front
  | _, _ => False

theorem around_ne_null (frame : Frame) (inner : Value) : frame.around inner ≠ .null := by
  cases frame <;> nofun

end Frame

namespace Value

/-- What is inside all optional layers; it is no layer itself, but may be an empty one. -/
def core : Value → Value
  | present inner => core inner
  | other => other

/-- The same layers around another value. -/
def replaceCore (value : Value) : Value → Value
  | present inner => present (replaceCore value inner)
  | _ => value

/-- A value that is no optional layer around another one. -/
def Unlayered (value : Value) : Prop :=
  ∀ inner, value ≠ present inner

namespace Unlayered

theorem core_eq {value : Value} (unlayered : value.Unlayered) : value.core = value := by
  cases value with
  | present inner => exact absurd rfl (unlayered inner)
  | _ => rfl

theorem replaceCore_eq {value : Value} (unlayered : value.Unlayered) (other : Value) :
    replaceCore other value = other := by
  cases value with
  | present inner => exact absurd rfl (unlayered inner)
  | _ => rfl

end Unlayered

theorem unlayered_core (value : Value) : value.core.Unlayered := by
  fun_induction core value with
  | case1 inner ih => exact ih
  | case2 other unlayered => exact unlayered

theorem replaceCore_core (value : Value) : replaceCore value.core value = value := by
  fun_induction core value with
  | case1 inner ih => rw [replaceCore, ih]
  | case2 other unlayered => exact Unlayered.replaceCore_eq unlayered other

theorem core_replaceCore {value : Value} (unlayered : value.Unlayered) (target : Value) :
    (replaceCore value target).core = value := by
  fun_induction replaceCore value target with
  | case1 inner ih => exact ih
  | case2 other _ => exact unlayered.core_eq

theorem replaceCore_replaceCore {value : Value} (unlayered : value.Unlayered)
    (other target : Value) :
    replaceCore other (replaceCore value target) = replaceCore other target := by
  fun_induction replaceCore value target with
  | case1 inner ih => rw [replaceCore, replaceCore, ih]
  | case2 target bare => rw [unlayered.replaceCore_eq, Unlayered.replaceCore_eq bare]

theorem throughLayers_eq {ε : Type} (change : Value → Attempt ε) (target : Value) :
    throughLayers change target = (change target.core).inside (replaceCore · target) := by
  fun_induction throughLayers change target with
  | case1 inner ih =>
    rw [ih]
    rfl
  | case2 other unlayered =>
    simp only [Attempt.inside, Unlayered.core_eq unlayered, Unlayered.replaceCore_eq unlayered]

section

variable {frame : Frame} {slot : Slot} {step : PathStep}

theorem unlayered_around (place : frame.IsAt slot) (inner : Value) :
    (frame.around inner).Unlayered := by
  cases frame with
  | layer => exact place.elim
  | _ => nofun

/-- A frame at the slot of a step finds what it is around. -/
theorem slotContent_around (place : frame.IsAt step.slot) (inner : Value) :
    slotContent step (frame.around inner) = .ok (some inner) := by
  unfold slotContent
  generalize step.slot = slot at place
  cases frame with
  | layer => exact place.elim
  | item front back =>
    cases slot with
    | named name => exact place.elim
    | placed position =>
      obtain rfl : front.length = position := place
      simp [Frame.around]
  | entry front key back =>
    cases slot with
    | placed position => exact place.elim
    | named name =>
      obtain ⟨rfl, new⟩ := place
      simp only [Frame.around, Table.find?_append_cons new]
  | field typeName identity front key back =>
    cases slot with
    | placed position => exact place.elim
    | named name =>
      obtain ⟨rfl, new⟩ := place
      simp only [Frame.around, Table.find?_append_cons new]

theorem replaceSlot_around (place : frame.IsAt slot) (old value : Value) :
    replaceSlot slot value (frame.around old) = frame.around value := by
  cases frame with
  | layer => exact place.elim
  | item front back =>
    cases slot with
    | named name => exact place.elim
    | placed position =>
      obtain rfl : front.length = position := place
      simp [replaceSlot, Frame.around]
  | entry front key back =>
    cases slot with
    | placed position => exact place.elim
    | named name =>
      obtain ⟨rfl, new⟩ := place
      simp only [replaceSlot, Frame.around, Table.set_append_cons new]
  | field typeName identity front key back =>
    cases slot with
    | placed position => exact place.elim
    | named name =>
      obtain ⟨rfl, new⟩ := place
      simp only [replaceSlot, Frame.around, Table.set_append_cons new]

/-- What is found in a slot has a frame there. -/
theorem exists_frame_of_slotContent {container inner : Value}
    (found : slotContent step container = .ok (some inner)) :
    ∃ frame : Frame, frame.IsAt step.slot ∧ container = frame.around inner := by
  unfold slotContent at found
  generalize step.slot = slot at found ⊢
  split at found
  next typeName identity fields name =>
    split at found
    next value present =>
      cases found
      obtain ⟨front, back, rfl, new⟩ := Table.exists_append_cons_of_find? present
      exact ⟨.field typeName identity front name back, ⟨rfl, new⟩, rfl⟩
    next => cases found
  next entries name =>
    obtain ⟨front, back, rfl, new⟩ := Table.exists_append_cons_of_find? (Except.ok.inj found)
    exact ⟨.entry front name back, ⟨rfl, new⟩, rfl⟩
  next items position =>
    obtain ⟨inside, rfl⟩ := List.getElem?_eq_some_iff.mp (Except.ok.inj found)
    refine ⟨.item (items.take position) (items.drop (position + 1)), ?_, ?_⟩
    · exact List.length_take_of_le (Nat.le_of_lt inside)
    · simp [Frame.around]
  -- Nothing is found where the slot does not suit the container.
  next => cases found

theorem child_eq_ok_iff {container inner : Value} :
    child step container = .ok inner ↔
      inner ≠ null ∧ slotContent step container = .ok (some inner) := by
  unfold child
  cases found : slotContent step container with
  | error failure => simp
  | ok content =>
    cases content with
    | none => simp
    | some value =>
      by_cases isNull : value = null
      · simp only [isNull, reduceCtorEq, Except.ok.injEq, Option.some.injEq, false_iff, not_and]
        exact fun notNull same => notNull same.symm
      · simp only [Except.ok.injEq, Option.some.injEq]
        exact ⟨fun same => ⟨same ▸ isNull, same⟩, And.right⟩

/-- A step leads through a frame at its slot, unless the frame is around null. -/
theorem child_around (place : frame.IsAt step.slot) {inner : Value} (notNull : inner ≠ null) :
    child step (frame.around inner) = .ok inner :=
  child_eq_ok_iff.mpr ⟨notNull, slotContent_around place inner⟩

theorem exists_frame_of_child {container inner : Value}
    (found : child step container = .ok inner) :
    ∃ frame : Frame, frame.IsAt step.slot ∧ container = frame.around inner :=
  exists_frame_of_slotContent (child_eq_ok_iff.mp found).2

end

end Value

end Rulebook

import Rulebook.Proofs.Assignment.Change

/-!
# Independent assignments

Two assignments are independent if their steps differ in some slot: neither is seen by the other,
and their order only shows in the order of the entries of a map to which both add a key.
-/
namespace Rulebook

/-- Steps that select different slots at some place that both have. -/
def PathStep.Apart (steps others : List PathStep) : Prop :=
  ∃ (place : Nat) (step other : PathStep),
    steps[place]? = some step ∧ others[place]? = some other ∧ step.slot ≠ other.slot

/-- Behind a slot that both share they still lead apart. -/
theorem PathStep.Apart.cons {step other : PathStep} {rest further : List PathStep}
    (apart : Apart (step :: rest) (other :: further)) (same : step.slot = other.slot) :
    Apart rest further := by
  obtain ⟨place, found, found', standsAt, standsAt', differ⟩ := apart
  cases place with
  | zero =>
    cases standsAt
    cases standsAt'
    exact absurd same differ
  | succ place => exact ⟨place, found, found', standsAt, standsAt', differ⟩

theorem PathStep.not_apart_nil_left {others : List PathStep} : ¬Apart [] others := by
  rintro ⟨place, step, other, standsAt, -⟩
  cases standsAt

theorem PathStep.not_apart_nil_right {steps : List PathStep} : ¬Apart steps [] := by
  rintro ⟨place, step, other, -, standsAt, -⟩
  cases standsAt

namespace Value

/-- Values that are the same but for the order of the entries of a map somewhere in them, where
every name still finds the same. -/
inductive SameUpToOrder : Value → Value → Prop
  | refl (value : Value) : SameUpToOrder value value
  | order {left right : Table Value} (permuted : left.Perm right)
      (found : ∀ name, Table.find? name left = Table.find? name right) :
      SameUpToOrder (map left) (map right)
  | within (frame : Frame) {left right : Value} (inner : SameUpToOrder left right) :
      SameUpToOrder (frame.around left) (frame.around right)

theorem SameUpToOrder.replaceCore {left right : Value} (same : SameUpToOrder left right)
    (target : Value) : SameUpToOrder (left.replaceCore target) (right.replaceCore target) := by
  fun_induction Value.replaceCore left target with
  | case1 inner ih => exact .within .layer ih
  | case2 other unlayered =>
    rw [Unlayered.replaceCore_eq unlayered]
    exact same

theorem unlayered_replaceSlot {container : Value} (unlayered : container.Unlayered) (slot : Slot)
    (value : Value) : (replaceSlot slot value container).Unlayered := by
  unfold replaceSlot
  split
  next => nofun
  next => nofun
  next => nofun
  next => exact unlayered

/-- What stands in a slot is not changed by replacing another one. -/
theorem slotContent_replaceSlot {step : PathStep} {slot : Slot} (distinct : step.slot ≠ slot)
    (value container : Value) :
    slotContent step (replaceSlot slot value container) = slotContent step container := by
  unfold slotContent replaceSlot
  generalize step.slot = wanted at distinct
  cases container with
  | entity typeName identity fields =>
    cases slot with
    | placed position => rfl
    | named name =>
      cases wanted with
      | placed position => rfl
      -- Of an entity a slot is told by its name, as of a map.
      | named wanted =>
        have other : wanted ≠ name := fun same => distinct (congrArg Slot.named same)
        simp only [Table.find?_set_other other]
  | map entries =>
    cases slot with
    | placed position => rfl
    | named name =>
      cases wanted with
      | placed position => rfl
      | named wanted =>
        have other : wanted ≠ name := fun same => distinct (congrArg Slot.named same)
        simp only [Table.find?_set_other other]
  | list items =>
    cases slot with
    | named name => rfl
    | placed position =>
      cases wanted with
      | named wanted => rfl
      | placed wanted =>
        have other : position ≠ wanted := fun same => distinct (congrArg Slot.placed same.symm)
        simp only [List.getElem?_set_ne other]
  | _ => rfl

/-- Whether a slot admits a value is not changed by replacing another one. -/
theorem admits_replaceSlot {step : PathStep} {slot : Slot} (distinct : step.slot ≠ slot)
    (value container : Value) :
    admits step (replaceSlot slot value container) = admits step container := by
  unfold admits replaceSlot
  generalize step.slot = wanted at distinct
  cases container with
  | entity typeName identity fields =>
    cases slot with
    | placed position => rfl
    | named name =>
      cases wanted with
      | placed position => rfl
      | named wanted =>
        have other : wanted ≠ name := fun same => distinct (congrArg Slot.named same)
        simp only [Table.find?_set_other other]
  | map entries => cases slot <;> cases wanted <;> rfl
  | list items =>
    cases slot with
    | named name => rfl
    | placed position =>
      cases wanted with
      | named wanted => rfl
      | placed wanted => simp only [List.length_set]
  | _ => rfl

theorem reach_replaceSlot {step : PathStep} {slot : Slot} (distinct : step.slot ≠ slot)
    (rest : List PathStep) (value container : Value) :
    reach step rest (replaceSlot slot value container) = reach step rest container := by
  unfold reach
  cases rest with
  | nil => simp only [admits_replaceSlot distinct]
  | cons next rest => simp only [child, slotContent_replaceSlot distinct]

/-- Two slots that admit values can be filled in either order. Only a map admits a value where none
stands yet, so the order can show only there. -/
theorem replaceSlot_comm {step other : PathStep} (distinct : step.slot ≠ other.slot)
    {container : Value} (admitted : admits step container = .ok ())
    (admitted' : admits other container = .ok ()) (value value' : Value) :
    SameUpToOrder (replaceSlot other.slot value' (replaceSlot step.slot value container))
      (replaceSlot step.slot value (replaceSlot other.slot value' container)) := by
  unfold admits at admitted admitted'
  generalize step.slot = slot at distinct admitted
  generalize other.slot = slot' at distinct admitted'
  cases container with
  | entity typeName identity fields =>
    cases slot with
    | placed position => cases admitted
    | named name =>
      cases slot' with
      | placed position => cases admitted'
      | named name' =>
        have differ : name' ≠ name := fun same => distinct (congrArg Slot.named same.symm)
        -- An entity admits declared fields only, so no field is added and the order stays.
        have declared : name ∈ Table.names fields := by
          rw [← Table.isSome_find?_iff]
          simp only at admitted
          split at admitted
          next isDeclared => exact isDeclared
          next => cases admitted
        simp only [replaceSlot, Table.set_comm differ value' value (.inr declared)]
        exact .refl _
  | map entries =>
    cases slot with
    | placed position => cases admitted
    | named name =>
      cases slot' with
      | placed position => cases admitted'
      | named name' =>
        have differ : name' ≠ name := fun same => distinct (congrArg Slot.named same.symm)
        -- A key that the map does not have yet is added at the end, so here the order shows.
        exact .order (Table.set_perm_comm differ value' value entries)
          (Table.find?_set_comm differ value' value entries)
  | list items =>
    cases slot with
    | named name => cases admitted
    | placed position =>
      cases slot' with
      | named name => cases admitted'
      | placed position' =>
        have differ : position ≠ position' := fun same => distinct (congrArg Slot.placed same)
        simp only [replaceSlot, List.set_comm _ _ differ]
        exact .refl _
  | _ => cases slot <;> cases admitted

/-- Two ways of changing a value in place that do not disturb each other: each goes as it does
alone, and their order does not show but in the order of entries. -/
structure Independent {ε : Type} (first second : Value → Attempt ε) (value : Value) : Prop where
  first_outcome : (first (second value).value).outcome = (first value).outcome
  second_outcome : (second (first value).value).outcome = (second value).outcome
  value : SameUpToOrder (second (first value).value).value (first (second value).value).value

/-- Two ways of changing a part remain independent where the part is rebuilt into a whole, if both
leave the part so that the other one finds it there. -/
theorem Independent.rebuilt {ε : Type} {first second first' second' : Value → Attempt ε}
    (rebuild : Value → Value) {fits : Value → Prop}
    (congruent : ∀ left right, SameUpToOrder left right →
      SameUpToOrder (rebuild left) (rebuild right))
    (first_rebuilt : ∀ part, fits part → first' (rebuild part) = (first part).inside rebuild)
    (second_rebuilt : ∀ part, fits part → second' (rebuild part) = (second part).inside rebuild)
    (first_fits : ∀ part, fits part → fits (first part).value)
    (second_fits : ∀ part, fits part → fits (second part).value)
    {part : Value} (here : fits part) (independent : Independent first second part) :
    Independent first' second' (rebuild part) := by
  -- Each one is applied to the part first and to the whole around what the other has left.
  have first_last := first_rebuilt (second part).value (second_fits part here)
  have second_last := second_rebuilt (first part).value (first_fits part here)
  refine ⟨?_, ?_, ?_⟩
  · rw [first_rebuilt part here, second_rebuilt part here, Attempt.inside, first_last]
    exact independent.first_outcome
  · rw [first_rebuilt part here, second_rebuilt part here, Attempt.inside, second_last]
    exact independent.second_outcome
  · rw [first_rebuilt part here, second_rebuilt part here, Attempt.inside, Attempt.inside,
      first_last, second_last]
    exact congruent _ _ independent.value

section

variable (path path' : String) (value value' : Value) {step other : PathStep}
  (rest further : List PathStep)

theorem value_assignAt_of_error {container : Value} {failure : TechnicalCause}
    (found : reach step rest container = .error failure) :
    (assignAt path value step rest container).value = container := by
  rw [assignAt, found]
  rfl

theorem value_assignAt_of_ok {container inner : Value}
    (found : reach step rest container = .ok inner) :
    (assignAt path value step rest container).value
      = replaceSlot step.slot (assignWithin path value rest inner).value container := by
  rw [assignAt, found]
  rfl

/-- How an assignment goes is decided by what its first step finds. -/
theorem outcome_assignAt_congr {container container' : Value}
    (same : reach step rest container = reach step rest container') :
    (assignAt path value step rest container).outcome
      = (assignAt path value step rest container').outcome := by
  unfold assignAt
  rw [same]
  cases reach step rest container' <;> rfl

theorem reach_after_assignAt (distinct : step.slot ≠ other.slot) (container : Value) :
    reach step rest (assignAt path' value' other further container).value
      = reach step rest container := by
  cases found : reach other further container with
  | error failure => rw [value_assignAt_of_error path' value' further found]
  | ok inner =>
    rw [value_assignAt_of_ok path' value' further found, reach_replaceSlot distinct]

/-- Assignments into different slots of a container are independent. -/
theorem independent_of_slot_ne (distinct : step.slot ≠ other.slot) (container : Value) :
    Independent (assignAt path value step rest) (assignAt path' value' other further)
      container := by
  have sees := reach_after_assignAt path' value' rest further distinct container
  have sees' := reach_after_assignAt path value further rest distinct.symm container
  refine ⟨outcome_assignAt_congr path value rest sees,
    outcome_assignAt_congr path' value' further sees', ?_⟩
  -- Each finds the same in either order, so an assignment that fails does nothing in both.
  cases found : reach step rest container with
  | error failure =>
    rw [found] at sees
    rw [value_assignAt_of_error path value rest found, value_assignAt_of_error path value rest sees]
    exact .refl _
  | ok inner =>
    cases found' : reach other further container with
    | error failure =>
      rw [found'] at sees'
      rw [value_assignAt_of_error path' value' further found',
        value_assignAt_of_error path' value' further sees']
      exact .refl _
    | ok inner' =>
      rw [found] at sees
      rw [found'] at sees'
      rw [value_assignAt_of_ok path' value' further sees',
        value_assignAt_of_ok path value rest found, value_assignAt_of_ok path value rest sees,
        value_assignAt_of_ok path' value' further found']
      exact replaceSlot_comm distinct (admits_of_reach found) (admits_of_reach found') _ _

/-- With further steps, an assignment works on what stands in the frame at its first one. -/
theorem assignAt_around {frame : Frame} (place : frame.IsAt step.slot) (next : PathStep)
    {part : Value} (notNull : part ≠ null) :
    assignAt path value step (next :: rest) (frame.around part) =
      (assignWithin path value (next :: rest) part).inside frame.around := by
  simp only [assignAt, reach, child_around place notNull, Attempt.inside, replaceSlot_around place]

/-- What an assignment along further steps leaves is not null if there was something before. -/
theorem value_assignWithin_ne_null {target : Value} (notNull : target ≠ null) (next : PathStep) :
    (assignWithin path value (next :: rest) target).value ≠ null := by
  cases went : (assignWithin path value (next :: rest) target).outcome with
  | error failure => rwa [value_of_assignWithin_error path value _ _ went]
  | ok => exact (slotChanged_of_assignWithin path value _ _ went).ne_null.2

/-- Assignments into one slot are independent if they are within what stands in it. -/
theorem independent_of_slot_eq (same : step.slot = other.slot) (next next' : PathStep)
    (inner : ∀ part, Independent (assignWithin path value (next :: rest))
      (assignWithin path' value' (next' :: further)) part) (container : Value) :
    Independent (assignAt path value step (next :: rest))
      (assignAt path' value' other (next' :: further)) container := by
  cases found : child step container with
  | ok part =>
    have notNull := (child_eq_ok_iff.mp found).1
    obtain ⟨frame, place, rfl⟩ := exists_frame_of_child found
    have place' : frame.IsAt other.slot := same ▸ place
    exact Independent.rebuilt frame.around (fun left right inner => .within frame inner)
      (fun part notNull => assignAt_around path value rest place next notNull)
      (fun part notNull => assignAt_around path' value' further place' next' notNull)
      (fun part notNull => value_assignWithin_ne_null path value rest notNull next)
      (fun part notNull => value_assignWithin_ne_null path' value' further notNull next')
      notNull (inner part)
  | error failure =>
    -- What one step does not find, the other one does not find either.
    have missing : ∃ failure', child other container = .error failure' := by
      cases found' : child other container with
      | error failure' => exact ⟨failure', rfl⟩
      | ok part =>
        have notNull := (child_eq_ok_iff.mp found').1
        obtain ⟨frame, place', rfl⟩ := exists_frame_of_child found'
        have place : frame.IsAt step.slot := same ▸ place'
        rw [child_around place notNull] at found
        cases found
    obtain ⟨failure', found'⟩ := missing
    have stays : (assignAt path value step (next :: rest) container).value = container :=
      value_assignAt_of_error path value (next :: rest) found
    have stays' : (assignAt path' value' other (next' :: further) container).value = container :=
      value_assignAt_of_error path' value' (next' :: further) found'
    -- Neither changes anything, so neither can disturb the other.
    refine ⟨by rw [stays'], by rw [stays], ?_⟩
    rw [stays, stays', stays]
    exact .refl _

theorem unlayered_value_assignAt {container : Value} (unlayered : container.Unlayered) :
    (assignAt path value step rest container).value.Unlayered := by
  cases found : reach step rest container with
  | error failure => rwa [value_assignAt_of_error path value rest found]
  | ok inner =>
    rw [value_assignAt_of_ok path value rest found]
    exact unlayered_replaceSlot unlayered step.slot _

/-- The layers around a container do not matter to an assignment. -/
theorem assignWithin_replaceCore {container : Value} (unlayered : container.Unlayered)
    (target : Value) :
    assignWithin path value (step :: rest) (replaceCore container target) =
      (assignAt path value step rest container).inside (replaceCore · target) := by
  rw [assignWithin_cons, core_replaceCore unlayered]
  simp only [Attempt.inside, replaceCore_replaceCore unlayered]

theorem independent_through_layers (target : Value)
    (inner : Independent (assignAt path value step rest) (assignAt path' value' other further)
      target.core) :
    Independent (assignWithin path value (step :: rest))
      (assignWithin path' value' (other :: further)) target := by
  have outer : Independent (assignWithin path value (step :: rest))
      (assignWithin path' value' (other :: further)) (replaceCore target.core target) :=
    Independent.rebuilt (replaceCore · target) (fun left right same => same.replaceCore target)
      (fun part unlayered => assignWithin_replaceCore path value rest unlayered target)
      (fun part unlayered => assignWithin_replaceCore path' value' further unlayered target)
      (fun part unlayered => unlayered_value_assignAt path value rest unlayered)
      (fun part unlayered => unlayered_value_assignAt path' value' further unlayered)
      (unlayered_core target) inner
  rwa [replaceCore_core] at outer

end

/-- Assignments along steps that lead apart are independent. -/
theorem independent_of_apart (path path' : String) (value value' : Value) :
    ∀ (steps others : List PathStep), PathStep.Apart steps others → ∀ target,
      Independent (assignWithin path value steps) (assignWithin path' value' others) target
  | [], _, apart, _ => absurd apart PathStep.not_apart_nil_left
  | _ :: _, [], apart, _ => absurd apart PathStep.not_apart_nil_right
  | step :: rest, other :: further, apart, target => by
    apply independent_through_layers
    -- The place where the steps differ is here, or behind a slot that they share.
    by_cases same : step.slot = other.slot
    · have beyond := apart.cons same
      cases rest with
      -- A path that ends at the shared slot leads apart nowhere behind it.
      | nil => exact absurd beyond PathStep.not_apart_nil_left
      | cons next rest =>
        cases further with
        | nil => exact absurd beyond PathStep.not_apart_nil_right
        | cons next' further =>
          exact independent_of_slot_eq path path' value value' rest further same next next'
            (independent_of_apart path path' value value' (next :: rest) (next' :: further) beyond)
            target.core
    · exact independent_of_slot_ne path path' value value' rest further same target.core

end Value

namespace Evaluator

open Value (Independent)

/-- With the standard access, two assignments at paths that lead apart are independent. In either
order each of them goes as it does alone, and the targets that they leave are the same but for the
order of the entries of a map. -/
theorem assignments_commute (evaluator : Evaluator) (value value' : Value) {path path' : String}
    {steps others : List PathStep} (read : readPath path = .ok steps)
    (read' : readPath path' = .ok others) (apart : PathStep.Apart steps others) (target : Value) :
    Independent ({ evaluator with access := .standard }.assignInPlace value path)
      ({ evaluator with access := .standard }.assignInPlace value' path') target := by
  have within := Value.independent_of_apart path path' value value' steps others apart target
  have first (target : Value) := assignInPlace_of_readPath evaluator value read target
  have second (target : Value) := assignInPlace_of_readPath evaluator value' read' target
  refine ⟨?_, ?_, ?_⟩
  · rw [first, second, first]
    exact congrArg (Except.mapError _) within.first_outcome
  · rw [first, second, second]
    exact congrArg (Except.mapError _) within.second_outcome
  · rw [first, second, second, first]
    exact within.value

/-- Two entries that a map does not have yet are both added, and stand in the order in which they
were assigned. -/
theorem assignments_commute_of_new_entries :
    let rates (entries : Table Value) : Value := .map [("rates", .present (.map entries))]
    let taxed := (Evaluator.standard .empty).assignInPlace (.bool true) "rates.tax"
    let shared := (Evaluator.standard .empty).assignInPlace (.bool false) "rates['share']"
    Independent taxed shared (rates []) ∧
      (shared (taxed (rates [])).value).value
        = rates [("tax", .bool true), ("share", .bool false)] ∧
      (taxed (shared (rates [])).value).value
        = rates [("share", .bool false), ("tax", .bool true)] := by
  intro rates taxed shared
  have read : readPath "rates.tax" = .ok [.property "rates", .property "tax"] := by
    with_unfolding_all rfl
  have read' : readPath "rates['share']" = .ok [.property "rates", .key "share"] := by
    with_unfolding_all rfl
  have apart : PathStep.Apart [.property "rates", .property "tax"]
      [.property "rates", .key "share"] :=
    ⟨1, .property "tax", .key "share", rfl, rfl, by decide⟩
  refine ⟨assignments_commute (.standard .empty) (.bool true) (.bool false) read read' apart
    (rates []), ?_, ?_⟩
  · simp only [taxed, shared, assignInPlace, read, read']
    rfl
  · simp only [taxed, shared, assignInPlace, read, read']
    rfl

end Evaluator

end Rulebook

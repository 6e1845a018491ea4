import Rulebook.Proofs.Value.Place

/-!
# What an assignment changes

With the standard access an assignment that fails leaves the target as it is. One that succeeds
changes one slot, or appends one entry to a map, at the end of the path's steps; the containers on
the way, and the layers around them, stay the same but for that.
-/
namespace Rulebook

namespace Value

/-- Whether a value can be put into the slot that a step selects, in a container that is no optional
value: a field has to be declared, and a position has to exist. -/
def admits (step : PathStep) (container : Value) : Except TechnicalCause Unit :=
  match container, step.slot with
  | entity typeName _ fields, .named name =>
    if (Table.find? name fields).isSome then .ok ()
    else .error (.property (.undefined name typeName))
  | map _, .named _ => .ok ()
  | other, .named name => .error (.property (.notAnObject name other.typeName))
  | list items, .placed position =>
    if position < items.length then .ok ()
    else .error (.assignment step.text (.outOfBounds items.length))
  | other, .placed _ => .error (.assignment step.text (.notIndexable other.typeName))

/-- A value is admitted exactly where one stands already, and under a new key of a map. -/
theorem admits_eq_ok_iff (step : PathStep) (container : Value) :
    admits step container = .ok () ↔
      (∃ old, slotContent step container = .ok (some old)) ∨
        ∃ name entries, step.slot = .named name ∧ container = map entries ∧
          name ∉ Table.names entries := by
  unfold admits slotContent
  generalize step.slot = slot
  cases slot with
  | named name =>
    cases container with
    | entity typeName identity fields => cases found : Table.find? name fields <;> simp [found]
    | map entries =>
      -- Only in a map is there room for a name that is not there yet.
      cases found : Table.find? name entries with
      | some old => simp [found]
      | none => simp [(Table.find?_eq_none_iff name entries).mp found]
    | _ => simp
  | placed position =>
    cases container with
    | list items =>
      by_cases inside : position < items.length
      · simp [inside]
      · simp [inside]
    | _ => simp

/-- The standard access puts a value wherever a slot admits it and refuses it elsewhere. -/
theorem putSlot_standard (step : PathStep) (value : Value) {container : Value}
    (unlayered : container.Unlayered) :
    putSlot .standard step value container = match admits step container with
      | .ok () => .succeed (replaceSlot step.slot value container)
      | .error failure => .refuse failure container := by
  unfold putSlot admits
  generalize step.slot = slot
  cases slot with
  | named name =>
    cases container with
    | present inner => exact absurd rfl (unlayered inner)
    | entity typeName identity fields =>
      simp only [PropertyAccess.standard, setProperty]
      by_cases declared : (Table.find? name fields).isSome
      · simp only [if_pos declared, replaceSlot]
      · simp only [if_neg declared]
    | _ => rfl
  | placed position =>
    cases container with
    | list items =>
      by_cases inside : position < items.length
      · simp only [if_pos inside, replaceSlot]
      · simp only [if_neg inside]
    | _ => rfl

/-- What a step finds when further steps follow it; the last step only needs its slot. -/
def reach (step : PathStep) (rest : List PathStep) (container : Value) :
    Except TechnicalCause Value :=
  match rest with
  | [] => (admits step container).map fun _ => null
  | _ :: _ => child step container

/-- A step that leads anywhere leads to a slot that admits a value. -/
theorem admits_of_reach {step : PathStep} {rest : List PathStep} {container inner : Value}
    (found : reach step rest container = .ok inner) : admits step container = .ok () := by
  unfold reach at found
  cases rest with
  | nil =>
    cases admitted : admits step container with
    | ok => rfl
    | error failure =>
      rw [admitted] at found
      cases found
  | cons next rest =>
    exact (admits_eq_ok_iff step container).mpr (.inl ⟨inner, (child_eq_ok_iff.mp found).2⟩)

/-- Assigns along steps that lead to the slot of the value; without a step left, the value itself
stands there afterwards. -/
def assignWithin (path : String) (value : Value) : List PathStep → Value → Attempt TechnicalCause
  | [], _ => .succeed value
  | steps, target => assignAlong .standard path value steps target

/-- What an assignment does to a container: it works on what the first step finds, and what stands
there afterwards is put back. -/
def assignAt (path : String) (value : Value) (step : PathStep) (rest : List PathStep)
    (container : Value) : Attempt TechnicalCause :=
  match reach step rest container with
  | .error failure => .refuse failure container
  | .ok inner => (assignWithin path value rest inner).inside (replaceSlot step.slot · container)

/-- The layers around the target are taken off and put back. -/
theorem assignWithin_cons (path : String) (value : Value) (step : PathStep) (rest : List PathStep)
    (target : Value) :
    assignWithin path value (step :: rest) target =
      (assignAt path value step rest target.core).inside (replaceCore · target) := by
  unfold assignWithin assignAt reach
  cases rest with
  | nil =>
    simp only [assignAlong]
    rw [throughLayers_eq, putSlot_standard step value (unlayered_core target)]
    cases admits step target.core <;> rfl
  | cons next rest =>
    simp only [assignAlong]
    rw [throughLayers_eq]
    rfl

/-- A failed assignment leaves what was there. -/
theorem value_of_assignWithin_error (path : String) (value : Value) {failure : TechnicalCause} :
    ∀ (steps : List PathStep) (target : Value),
      (assignWithin path value steps target).outcome = .error failure →
        (assignWithin path value steps target).value = target
  -- Without a step left the value itself is put there, and nothing can fail.
  | [], _, failed => nomatch failed
  | step :: rest, target, failed => by
    -- By recursion on the steps: what fails within leaves the inner value, and that is put back.
    rw [assignWithin_cons] at failed ⊢
    unfold assignAt at failed ⊢
    cases found : reach step rest target.core with
    | error failure => exact replaceCore_core target
    | ok inner =>
      rw [found] at failed
      cases rest with
      | nil => nomatch failed
      | cons next rest =>
        -- What was found is put back into the frame that it was found in.
        have unchanged := value_of_assignWithin_error path value (next :: rest) inner failed
        obtain ⟨frame, place, split⟩ := exists_frame_of_child found
        simp only [Attempt.inside, unchanged]
        rw [split, replaceSlot_around place, ← split, replaceCore_core]

/-- One slot is changed, at the end of steps that lead through the value and through any optional
layers: what stood there before is replaced, or an entry that was not there before is appended to a
map. Everything around it is the same before and after. -/
inductive SlotChanged (value : Value) : List PathStep → Value → Value → Prop
  | here (old : Value) : SlotChanged value [] old value
  | newEntry {step : PathStep} {name : String} {entries : Table Value}
      (named : step.slot = .named name) (new : name ∉ Table.names entries) :
      SlotChanged value [step] (map entries) (map (entries ++ [(name, value)]))
  | within {frame : Frame} {step : PathStep} {rest : List PathStep} {before after : Value}
      (place : frame.IsAt step.slot) (inner : SlotChanged value rest before after) :
      SlotChanged value (step :: rest) (frame.around before) (frame.around after)
  | layer {step : PathStep} {rest : List PathStep} {before after : Value}
      (inner : SlotChanged value (step :: rest) before after) :
      SlotChanged value (step :: rest) (present before) (present after)

theorem SlotChanged.replaceCore {value : Value} {step : PathStep} {rest : List PathStep}
    {target after : Value} (changed : SlotChanged value (step :: rest) target.core after) :
    SlotChanged value (step :: rest) target (replaceCore after target) := by
  -- One layer after the other is taken off the target, down to its core.
  fun_induction core target with
  | case1 inner ih => exact .layer (ih changed)
  | case2 other unlayered =>
    rw [Unlayered.replaceCore_eq unlayered]
    exact changed

/-- Putting a value into a slot that admits it changes the slot, or makes it. -/
theorem slotChanged_of_admits (value : Value) {step : PathStep} {container : Value}
    (admitted : admits step container = .ok ()) :
    SlotChanged value [step] container (replaceSlot step.slot value container) := by
  rcases (admits_eq_ok_iff step container).mp admitted with
    ⟨old, found⟩ | ⟨name, entries, named, rfl, new⟩
  · obtain ⟨frame, place, rfl⟩ := exists_frame_of_slotContent found
    rw [replaceSlot_around place]
    exact .within place (.here old)
  · rw [named, replaceSlot, Table.set_of_not_mem value new]
    exact .newEntry named new

theorem slotChanged_of_assignWithin (path : String) (value : Value) :
    ∀ (steps : List PathStep) (target : Value),
      (assignWithin path value steps target).outcome = .ok () →
        SlotChanged value steps target (assignWithin path value steps target).value
  | [], target, _ => .here target
  | step :: rest, target, succeeded => by
    rw [assignWithin_cons] at succeeded ⊢
    apply SlotChanged.replaceCore
    unfold assignAt at succeeded ⊢
    cases found : reach step rest target.core with
    | error failure =>
      rw [found] at succeeded
      nomatch succeeded
    | ok inner =>
      rw [found] at succeeded
      cases rest with
      | nil => exact slotChanged_of_admits value (admits_of_reach found)
      | cons next rest =>
        have changed := slotChanged_of_assignWithin path value (next :: rest) inner succeeded
        obtain ⟨frame, place, split⟩ := exists_frame_of_child found
        simp only [Attempt.inside]
        rw [split, replaceSlot_around place]
        exact .within place changed

/-- Further steps lead through a container or a layer, before the change and after it. -/
theorem SlotChanged.ne_null {value : Value} {step : PathStep} {rest : List PathStep}
    {before after : Value} (changed : SlotChanged value (step :: rest) before after) :
    before ≠ null ∧ after ≠ null := by
  cases changed with
  | within place inner => exact ⟨Frame.around_ne_null _ _, Frame.around_ne_null _ _⟩
  | newEntry named new => exact ⟨nofun, nofun⟩
  | layer inner => exact ⟨nofun, nofun⟩

/-- Where one slot can be changed, the assignment does it. -/
theorem SlotChanged.assignWithin_eq (path : String) {value : Value} {steps : List PathStep}
    {before after : Value} (changed : SlotChanged value steps before after) :
    assignWithin path value steps before = .succeed after := by
  -- Over the change: each of its constructors is one way for an assignment to go on.
  induction changed with
  | here old => rfl
  | @newEntry step name entries named new =>
    have admitted : admits step (map entries) = .ok () :=
      (admits_eq_ok_iff _ _).mpr (.inr ⟨name, entries, named, rfl, new⟩)
    have unlayered : (map entries).Unlayered := nofun
    rw [assignWithin_cons, unlayered.core_eq, assignAt, reach, admitted]
    simp only [Except.map, assignWithin, Attempt.succeed, Attempt.inside,
      unlayered.replaceCore_eq, named, replaceSlot, Table.set_of_not_mem value new]
  | @within frame step rest before after place inner ih =>
    have found : ∃ reached, reach step rest (frame.around before) = .ok reached ∧
        assignWithin path value rest reached = .succeed after := by
      -- The last step does not look at what stands in its slot, which may be null.
      cases rest with
      | nil =>
        have admitted : admits step (frame.around before) = .ok () :=
          (admits_eq_ok_iff _ _).mpr (.inl ⟨before, slotContent_around place before⟩)
        exact ⟨null, by rw [reach, admitted]; rfl, ih⟩
      | cons next rest => exact ⟨before, child_around place inner.ne_null.1, ih⟩
    obtain ⟨reached, found, done⟩ := found
    -- The same frame is around what is found and around what is put back.
    have unlayered := unlayered_around place before
    rw [assignWithin_cons, unlayered.core_eq, assignAt, found]
    simp only [done, Attempt.succeed, Attempt.inside, replaceSlot_around place,
      unlayered.replaceCore_eq]
  | @layer step rest before after inner ih =>
    rw [assignWithin_cons] at ih ⊢
    exact congrArg (Attempt.inside present) ih

theorem assignWithin_eq_succeed_iff (path : String) (value : Value) (steps : List PathStep)
    (target after : Value) :
    assignWithin path value steps target = .succeed after ↔
      SlotChanged value steps target after := by
  constructor
  · intro succeeded
    have changed := slotChanged_of_assignWithin path value steps target
      (congrArg Attempt.outcome succeeded)
    rwa [succeeded] at changed
  · exact fun changed => changed.assignWithin_eq path

end Value

namespace Evaluator

open Value (SlotChanged)

/-- With the standard access an assignment runs along the steps of its path. -/
theorem assignInPlace_of_readPath (evaluator : Evaluator) (value : Value) {path : String}
    {steps : List PathStep} (read : readPath path = .ok steps) (target : Value) :
    { evaluator with access := .standard }.assignInPlace value path target =
      (Value.assignWithin path value steps target).mapError
        fun failure => ⟨path, .technical failure⟩ := by
  obtain ⟨root, rest, rfl⟩ := exists_root_of_readPath read
  rw [assignInPlace, read]
  rfl

/-- Assignment with the standard access is atomic and changes one slot. If it fails, the target is
as before. It succeeds exactly if the path has steps that lead to a slot, or to a new entry of a
map, and then that slot, or that entry, holds the value, and all else is as before. -/
theorem assignInPlace_changes_one_slot (evaluator : Evaluator) (value : Value) (path : String)
    (target : Value) :
    (∀ error, ({ evaluator with access := .standard }.assignInPlace value path target).outcome
        = .error error →
      ({ evaluator with access := .standard }.assignInPlace value path target).value = target) ∧
    ∀ after, { evaluator with access := .standard }.assignInPlace value path target
        = .succeed after ↔
      ∃ steps, readPath path = .ok steps ∧ SlotChanged value steps target after := by
  cases read : readPath path with
  | error failure =>
    unfold assignInPlace
    rw [read]
    -- A text that is no path is refused before the target is looked at.
    refine ⟨fun _ _ => rfl, fun after => ⟨nofun, ?_⟩⟩
    rintro ⟨steps, found, -⟩
    cases found
  | ok steps =>
    rw [assignInPlace_of_readPath evaluator value read]
    refine ⟨fun error failed => ?_, fun after => ?_⟩
    · obtain ⟨failure, failed⟩ := Attempt.exists_of_mapError_error failed
      exact Value.value_of_assignWithin_error path value steps target failed
    · rw [Attempt.mapError_eq_succeed_iff, Value.assignWithin_eq_succeed_iff]
      simp

end Evaluator

end Rulebook

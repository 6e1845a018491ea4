import Rulebook.Proofs.Assignment.Change
import Rulebook.Proofs.Evaluation.InTurn
import Rulebook.Proofs.Evaluation.Run
import Rulebook.Proofs.Expression.Reference

/-!
# Reading what was assigned

Reading along a path finds what was assigned there. An assignment looks through all optional layers
of every container, though, while an index or a quoted key removes one layer only when it is read;
a bracket that is applied to a container under more layers than that cannot be read.
-/
namespace Rulebook

/-- Whether a step is written in brackets. -/
def PathStep.isBracket : PathStep → Bool
  | .property _ => false
  | .index _ | .key _ => true

namespace Value

/-- How many optional layers there are around the core of a value. -/
def layers : Value → Nat
  | present inner => layers inner + 1
  | _ => 0

/-- The containers that the steps of a path are applied to, with their layers, each beside its
step. -/
def containers : List PathStep → Value → List (PathStep × Value)
  | [], _ => []
  | step :: rest, target =>
    (step, target) :: match child step target.core with
      | .ok inner => containers rest inner
      | .error _ => []

/-- Some step in brackets is applied to a container under two or more optional layers. -/
def BracketUnderLayers (target : Value) (steps : List PathStep) : Prop :=
  ∃ entry ∈ containers steps target, entry.1.isBracket ∧ 2 ≤ entry.2.layers

/-- The lists along the steps have lengths that a signed count of 64 bits can hold. -/
def LengthsFit (target : Value) (steps : List PathStep) : Prop :=
  ∀ entry ∈ containers steps target, ∀ items, entry.2.core = list items →
    items.length ≤ 0x7fffffff_ffffffff

/-- A value stands at the end of steps that lead through containers and their layers. -/
inductive Holds (value : Value) : List PathStep → Value → Prop
  | here : Holds value [] value
  | within {frame : Frame} {step : PathStep} {rest : List PathStep} {part target : Value}
      (place : frame.IsAt step.slot) (split : target.core = frame.around part)
      (inner : Holds value rest part) : Holds value (step :: rest) target

/-- A slot that was changed holds the value. -/
theorem SlotChanged.holds {value : Value} {steps : List PathStep} {before after : Value}
    (changed : SlotChanged value steps before after) : Holds value steps after := by
  induction changed with
  | here old => exact .here
  | @newEntry step name entries named new =>
    have place : (Frame.entry entries name []).IsAt step.slot := by
      rw [named]
      exact ⟨rfl, new⟩
    -- The new entry stands at the end of the map, where no earlier one has its name.
    exact .within place rfl .here
  | within place inner ih => exact .within place (unlayered_around place _).core_eq ih
  | layer inner ih =>
    cases ih with
    | within place split held => exact .within place split held

theorem Holds.ne_null {value target : Value} {step : PathStep} {rest : List PathStep}
    (held : Holds value (step :: rest) target) : target ≠ null := by
  rintro rfl
  cases held with
  | @within frame _ _ _ _ place split inner => cases frame <;> cases split

theorem containers_of_holds {value part target : Value} {frame : Frame} {step : PathStep}
    {rest : List PathStep} (place : frame.IsAt step.slot) (split : target.core = frame.around part)
    (inner : Holds value rest part) :
    containers (step :: rest) target = (step, target) :: containers rest part := by
  rw [containers]
  cases rest with
  -- The last step may find null, but no container comes behind it.
  | nil => split <;> rfl
  | cons next rest => rw [split, child_around place inner.ne_null]

theorem bracketUnderLayers_iff {value part target : Value} {frame : Frame} {step : PathStep}
    {rest : List PathStep} (place : frame.IsAt step.slot) (split : target.core = frame.around part)
    (inner : Holds value rest part) :
    target.BracketUnderLayers (step :: rest) ↔
      (step.isBracket ∧ 2 ≤ target.layers) ∨ part.BracketUnderLayers rest := by
  unfold BracketUnderLayers
  rw [containers_of_holds place split inner, List.exists_mem_cons_iff]

theorem lengthsFit_iff {value part target : Value} {frame : Frame} {step : PathStep}
    {rest : List PathStep} (place : frame.IsAt step.slot) (split : target.core = frame.around part)
    (inner : Holds value rest part) :
    target.LengthsFit (step :: rest) ↔
      (∀ items, target.core = list items → items.length ≤ 0x7fffffff_ffffffff) ∧
        part.LengthsFit rest := by
  unfold LengthsFit
  rw [containers_of_holds place split inner, List.forall_mem_cons]

/-- A property is read through all layers. -/
theorem getProperty_core (name : String) (target : Value) :
    getProperty name target.core = getProperty name target := by
  fun_induction core target with
  | case1 inner ih => exact ih
  | case2 other unlayered => rfl

theorem getProperty_around {frame : Frame} {name : String} (place : frame.IsAt (.named name))
    (part : Value) : getProperty name (frame.around part) = .ok part := by
  cases frame with
  | layer | item front back => exact place.elim
  | entry front key back =>
    obtain ⟨rfl, new⟩ := place
    rw [Frame.around, getProperty, Table.find?_append_cons new, Option.getD_some]
  | field typeName identity front key back =>
    obtain ⟨rfl, new⟩ := place
    rw [Frame.around, getProperty, Table.find?_append_cons new]

end Value

namespace AdapterRegistry

/-- The standard adapters remove the only layer around a container. -/
theorem unwrap_standard_of_layers_le {target part : Value} {frame : Frame} {slot : Slot}
    (place : frame.IsAt slot) (split : target.core = frame.around part)
    (layers : target.layers ≤ 1) : standard.unwrap target = some (frame.around part) := by
  have container (value : Value) (equal : value = frame.around part) :
      (Option.some value).filter (!·.isNull) = some (frame.around part) ∧ value ≠ .absent := by
    subst equal
    cases frame with
    | layer => exact place.elim
    | _ => exact ⟨rfl, nofun⟩
  rw [unwrap_standard]
  cases target with
  | present inner =>
    cases inner with
    | present _ => simp [Value.layers] at layers
    | _ => exact (container _ split).1
  | absent => exact absurd rfl (container _ split).2
  | _ => exact (container _ split).1

/-- Of several layers they remove the outermost one. -/
theorem unwrap_standard_of_le_layers {target : Value} (layers : 2 ≤ target.layers) :
    ∃ inner, standard.unwrap target = some (.present inner) := by
  rw [unwrap_standard]
  cases target with
  | present inner =>
    cases inner with
    | present deeper => exact ⟨deeper, rfl⟩
    | _ => simp [Value.layers] at layers
  | _ => simp [Value.layers] at layers

end AdapterRegistry

namespace Machine

theorem itemAt_ofInteger (items : List Value) {position : Nat}
    (inRange : (position : Int).natAbs < 0x1_00000000_00000000_00000000) :
    itemAt items (.ofInteger position inRange) = some (items.getD position .null) := by
  have whole : (Decimal.ofInteger position inRange).toInteger? = some (position : Int) := by
    rw [Decimal.toInteger?_eq_some_iff]
    exact (Int.mul_one _).symm
  simp [itemAt, whole]

section

variable {machine : Machine} {scope : Scope} {base : Expression} {level : Nat} {target : Value}

theorem evaluate_property_of_reads (reads : machine.evaluate base scope level = .pure target)
    (name : String) :
    machine.evaluate (.property base name) scope (level + 1)
      = .lift .property (machine.evaluator.access.get target name) := by
  simp only [evaluate, reads]
  exact pure_bind target _

theorem evaluate_index_of_reads (reads : machine.evaluate base scope (level + 1) = .pure target)
    (position : Value) :
    machine.evaluate (.index base (.literal position)) scope (level + 2)
      = machine.itemOf target position := by
  simp only [evaluate, reads]
  exact (pure_bind target _).trans (pure_bind position _)

variable (access : machine.evaluator.access = .standard)
  (adapters : machine.evaluator.adapters = .standard)
include access adapters

/-- One step further, what a frame is around is read, unless brackets meet too many layers. -/
theorem evaluate_step {part : Value} {frame : Frame} {step : PathStep}
    (reads : machine.evaluate base scope (level + 1) = .pure target)
    (place : frame.IsAt step.slot) (split : target.core = frame.around part)
    (fits : ∀ items, target.core = .list items → items.length ≤ 0x7fffffff_ffffffff)
    (shallow : step.isBracket → target.layers ≤ 1) :
    machine.evaluate (base.step step) scope (level + 2) = .pure part := by
  cases step with
  | property name =>
    -- Properties are read through any layers, so they need no limit.
    have found : PropertyAccess.standard.get target name = .ok part := by
      show Value.getProperty name target = _
      rw [← Value.getProperty_core, split, Value.getProperty_around place]
    rw [Expression.step, evaluate_property_of_reads reads, access, found]
    rfl
  | index position =>
    rw [Expression.step, Expression.positionLiteral, evaluate_index_of_reads reads, itemOf,
      adapters, AdapterRegistry.unwrap_standard_of_layers_le place split (shallow rfl)]
    cases frame with
    | item front back =>
      obtain rfl : front.length = position := place
      have short := fits _ split
      rw [List.length_append, List.length_cons] at short
      -- So the position is not cut, and it is one of the list.
      have whole : min front.length 0x7fffffff_ffffffff = front.length := by omega
      simp only [Frame.around, Value.bare, whole, itemAt_ofInteger]
      simp
    -- A position stands in no frame but a list.
    | _ => exact place.elim
  | key name =>
    rw [Expression.step, evaluate_index_of_reads reads, itemOf, adapters, access,
      AdapterRegistry.unwrap_standard_of_layers_le place split (shallow rfl)]
    have found := Value.getProperty_around place part
    cases frame with
    | entry front key back =>
      obtain ⟨rfl, new⟩ := place
      simp only [Frame.around, Value.bare, Table.find?_append_cons new, Option.getD_some]
    | field typeName identity front key back =>
      show Traced.lift .property (Value.getProperty name _) = _
      rw [found]
      rfl
    | _ => exact place.elim

omit access in
theorem evaluate_step_under_layers {step : PathStep}
    (reads : machine.evaluate base scope (level + 1) = .pure target)
    (bracket : step.isBracket) (deep : 2 ≤ target.layers) :
    ∃ position, machine.evaluate (base.step step) scope (level + 2)
      = .failWith (.invalidIndex "Optional" position) := by
  obtain ⟨inner, unwrapped⟩ := AdapterRegistry.unwrap_standard_of_le_layers deep
  -- What is left under one layer is still an optional value, which no bracket is applied to.
  cases step with
  | property name => cases bracket
  | index position =>
    rw [Expression.step, Expression.positionLiteral, evaluate_index_of_reads reads, itemOf,
      adapters, unwrapped]
    exact ⟨_, rfl⟩
  | key name =>
    rw [Expression.step, evaluate_index_of_reads reads, itemOf, adapters, unwrapped]
    exact ⟨_, rfl⟩

omit access adapters in
/-- A navigation that fails does not go on. -/
theorem evaluate_steps_of_failed {halt : Halt} (steps : List PathStep)
    (failed : machine.evaluate base scope level = .fail halt) :
    machine.evaluate (steps.foldl Expression.step base) scope (level + steps.length)
      = .fail halt := by
  induction steps generalizing base level with
  | nil => exact failed
  | cons step rest ih =>
    -- Whatever the step, its base is evaluated first.
    have further : machine.evaluate (base.step step) scope (level + 1) = .fail halt := by
      cases step with
      | property name | index position | key name =>
        simp only [Expression.step, Expression.positionLiteral, evaluate, failed]
        rfl
    rw [List.foldl_cons, List.length_cons, Nat.add_comm rest.length, ← Nat.add_assoc]
    exact ih further

/-- What stands at the end of steps is read along them, one level for every step, unless one of them
is a bracket under too many layers. -/
theorem evaluate_steps_of_holds {value : Value} {steps : List PathStep}
    (held : value.Holds steps target) (fits : target.LengthsFit steps)
    (reads : machine.evaluate base scope (level + 1) = .pure target) :
    (¬ target.BracketUnderLayers steps →
      machine.evaluate (steps.foldl Expression.step base) scope (level + 1 + steps.length)
        = .pure value) ∧
    (target.BracketUnderLayers steps → ∃ position,
      machine.evaluate (steps.foldl Expression.step base) scope (level + 1 + steps.length)
        = .failWith (.invalidIndex "Optional" position)) := by
  -- Over the steps to the value; the base expression and its level grow with them.
  induction held generalizing base level with
  | here =>
    refine ⟨fun _ => reads, ?_⟩
    rintro ⟨entry, member, -⟩
    cases member
  | @within frame step rest part target place split inner ih =>
    obtain ⟨short, restFits⟩ := (Value.lengthsFit_iff place split inner).mp fits
    have levels : level + 1 + (step :: rest).length = level + 1 + 1 + rest.length := by
      rw [List.length_cons]
      omega
    rw [Value.bracketUnderLayers_iff place split inner, List.foldl_cons, levels]
    -- Either the navigation stops here, or it goes on over the part, one level up.
    by_cases deep : step.isBracket ∧ 2 ≤ target.layers
    · obtain ⟨position, failed⟩ := evaluate_step_under_layers adapters reads deep.1 deep.2
      exact ⟨fun shallow => absurd (.inl deep) shallow,
        fun _ => ⟨position, evaluate_steps_of_failed rest failed⟩⟩
    · have shallow (bracket : step.isBracket) : target.layers ≤ 1 := by
        have := mt (And.intro bracket) deep
        omega
      have further := evaluate_step access adapters reads place split short shallow
      obtain ⟨found, failed⟩ := ih restFits further
      exact ⟨fun free => found (free ∘ .inr), fun under => failed (under.resolve_left deep)⟩

end

end Machine

theorem Expression.foldl_step_ne_literal (steps : List PathStep) {base : Expression}
    (complex : ∀ value, base ≠ .literal value) (value : Value) :
    steps.foldl Expression.step base ≠ .literal value := by
  induction steps generalizing base with
  | nil => exact complex value
  | cons step rest ih => exact ih (by cases step <;> exact fun _ => nofun)

namespace Evaluator

/-- A formula that is not flagged and is no literal has the outcome of its run. -/
theorem evaluate_of_trace (evaluator : Evaluator) {expression : Expression}
    (complex : ∀ value, expression ≠ .literal value) (environment : Environment) (clock : Clock) :
    evaluator.evaluate ⟨expression, []⟩ environment clock =
      blame ⟨expression, []⟩ (evaluator.trace ⟨expression, []⟩ environment clock).outcome := by
  have literal : Formula.literal? ⟨expression, []⟩ = none := by
    cases expression with
    | literal value => exact absurd rfl (complex value)
    | _ => rfl
  rw [evaluate, run_of_trace _ literal]

/-- Without named variables, the root of a path is a property of the data. -/
theorem evaluate_root (evaluator : Evaluator) (access : evaluator.access = .standard)
    (expression : Expression) {data part : Value} {frame : Frame} {root : String}
    (place : frame.IsAt (.named root)) (split : data.core = frame.around part)
    (crossContexts : Table Value) (clock : Clock) (level : Nat) :
    (evaluator.machine ⟨expression, []⟩ ⟨data, [], crossContexts⟩ clock).evaluate
      (.identifier root) { this := data } (level + 1) = .pure part := by
  have unflagged : root ∉ Formula.crossNames ⟨expression, []⟩ := by
    rw [Formula.mem_crossNames_iff]
    exact List.not_mem_nil
  have found : data.getProperty root = .ok part := by
    rw [← Value.getProperty_core, split, Value.getProperty_around place]
  simp only [machine, Machine.evaluate, Machine.readName, Table.find?, if_neg unflagged, access]
  show Traced.lift .property (data.getProperty root) = _
  rw [found]
  rfl

/-- What was assigned is read back. If an assignment with the standard access succeeds along a path
that has no more steps than the evaluator has levels, then the formula of the path, with no named
variables, has exactly the assigned value over the updated target; but if a step in brackets is
applied to a container under two or more optional layers, the evaluation fails there. -/
theorem assigned_value_is_read_back (functions : FunctionRegistry) (powers : PowerLibrary)
    (maxDepth : Nat) (value : Value) {path : String} {steps : List PathStep}
    (read : readPath path = .ok steps) (levels : steps.length ≤ maxDepth)
    {target updated : Value}
    (assigned : ({ functions, powers, maxDepth } : Evaluator).assignInPlace value path target
      = .succeed updated)
    (fits : updated.LengthsFit steps) (crossContexts : Table Value) (clock : Clock) :
    ∃ formula, Formula.ofPath path = .ok formula ∧
      (¬ updated.BracketUnderLayers steps →
        ({ functions, powers, maxDepth } : Evaluator).evaluate formula
          ⟨updated, [], crossContexts⟩ clock = .ok value) ∧
      (updated.BracketUnderLayers steps → ∃ position,
        ({ functions, powers, maxDepth } : Evaluator).evaluate formula
          ⟨updated, [], crossContexts⟩ clock
            = .error ⟨formula.text, .technical (.invalidIndex "Optional" position)⟩) := by
  have held : value.Holds steps updated := by
    have run := assignInPlace_of_readPath { functions, powers, maxDepth } value read target
    rw [assigned] at run
    exact ((Value.assignWithin_eq_succeed_iff ..).mp
      ((Attempt.mapError_eq_succeed_iff _ _ _).mp run.symm)).holds
  -- The name at the root is looked up, and only the steps behind it navigate.
  obtain ⟨root, rest, rfl⟩ := exists_root_of_readPath read
  have formula : Formula.ofPath path
      = .ok ⟨rest.foldl Expression.step (.identifier root), []⟩ := by
    rw [Formula.ofPath, Expression.ofPath, read]
    rfl
  refine ⟨_, formula, ?_⟩
  have complex : ∀ value, rest.foldl Expression.step (.identifier root) ≠ .literal value :=
    Expression.foldl_step_ne_literal rest fun _ => nofun
  simp only [evaluate_of_trace _ complex, trace]
  cases held with
  | @within frame _ _ part _ place split inner =>
    -- One level is left for the root and one for each further step.
    obtain ⟨level, enough⟩ : ∃ level, maxDepth = level + 1 + rest.length := by
      obtain ⟨level, enough⟩ := Nat.exists_eq_add_of_le levels
      exact ⟨level, by rw [enough, List.length_cons]; omega⟩
    have reads := evaluate_root { functions, powers, maxDepth } rfl
      (rest.foldl Expression.step (.identifier root)) place split crossContexts clock level
    obtain ⟨found, failed⟩ := Machine.evaluate_steps_of_holds rfl rfl inner
      ((Value.lengthsFit_iff place split inner).mp fits).2 reads
    rw [← enough] at found failed
    -- The root is no bracket, so brackets under layers come after it.
    rw [Value.bracketUnderLayers_iff place split inner]
    constructor
    · intro free
      rw [found (free ∘ .inr)]
      rfl
    · rintro (⟨bracket, -⟩ | under)
      · cases bracket
      · obtain ⟨position, stopped⟩ := failed under
        exact ⟨position, by rw [stopped]; rfl⟩

/-- A limit is read back from a list under one optional layer, and cannot be read under two. -/
theorem assigned_value_is_read_back_of_limits :
    let evaluator : Evaluator := { powers := .empty, maxDepth := 2 }
    let shallow (limit : Value) : Value := .map [("limits", .present (.list [limit]))]
    let deep (limit : Value) : Value := .map [("limits", .present (.present (.list [limit])))]
    evaluator.assignInPlace (.bool true) "limits[0]" (shallow .null)
        = .succeed (shallow (.bool true)) ∧
      (∃ formula, Formula.ofPath "limits[0]" = .ok formula ∧
        evaluator.evaluate formula ⟨shallow (.bool true), [], []⟩ .fixed = .ok (.bool true)) ∧
      evaluator.assignInPlace (.bool true) "limits[0]" (deep .null)
        = .succeed (deep (.bool true)) ∧
      ∃ formula, Formula.ofPath "limits[0]" = .ok formula ∧ ∃ position,
        evaluator.evaluate formula ⟨deep (.bool true), [], []⟩ .fixed
          = .error ⟨formula.text, .technical (.invalidIndex "Optional" position)⟩ := by
  intro evaluator shallow deep
  have read : readPath "limits[0]" = .ok [.property "limits", .index 0] := by
    with_unfolding_all rfl
  have assigned : evaluator.assignInPlace (.bool true) "limits[0]" (shallow .null)
      = .succeed (shallow (.bool true)) := by
    rw [assignInPlace, read]
    rfl
  have assignedDeep : evaluator.assignInPlace (.bool true) "limits[0]" (deep .null)
      = .succeed (deep (.bool true)) := by
    rw [assignInPlace, read]
    rfl
  have containers : (shallow (.bool true)).containers [.property "limits", .index 0]
      = [(.property "limits", shallow (.bool true)),
        (.index 0, .present (.list [.bool true]))] := rfl
  have containersDeep : (deep (.bool true)).containers [.property "limits", .index 0]
      = [(.property "limits", deep (.bool true)),
        (.index 0, .present (.present (.list [.bool true])))] := rfl
  have fits : (shallow (.bool true)).LengthsFit [.property "limits", .index 0] := by
    simp [Value.LengthsFit, containers, shallow, Value.core]
  have fitsDeep : (deep (.bool true)).LengthsFit [.property "limits", .index 0] := by
    simp [Value.LengthsFit, containersDeep, deep, Value.core]
  refine ⟨assigned, ?_, assignedDeep, ?_⟩
  · obtain ⟨formula, navigates, found, -⟩ := assigned_value_is_read_back .builtins .empty 2
      (.bool true) read (Nat.le_refl 2) assigned fits [] .fixed
    exact ⟨formula, navigates, found (by simp [Value.BracketUnderLayers, containers, Value.layers])⟩
  · obtain ⟨formula, navigates, -, failed⟩ := assigned_value_is_read_back .builtins .empty 2
      (.bool true) read (Nat.le_refl 2) assignedDeep fitsDeep [] .fixed
    exact ⟨formula, navigates,
      failed (by simp [Value.BracketUnderLayers, containersDeep, Value.layers, PathStep.isBracket])⟩

end Evaluator

end Rulebook

import Mathlib.Data.List.Nodup
import Mathlib.Data.Prod.Lex
import Rulebook.Extraction.Adapter

/-!
# Which adapter is consulted

Adapters are registered one after another, wrappers and traversals in any mixture. A traversal
stands at the position of its registration, a wrapper at its priority and then its position. The
registry sorts by priority alone and keeps no positions. But the sort is stable and positions
ascend, so the wrappers come to stand in the order of both, and the search takes the first that
applies: the one at the least pair.
-/
namespace Rulebook

/-- A stable sort by a key orders by the key, and where keys are equal by what ordered before. -/
theorem pairwise_mergeSort_by {α β : Type} [LinearOrder β] (key : α → β)
    {earlier : α → α → Prop} {items : List α} (ordered : items.Pairwise earlier) :
    (items.mergeSort fun first second => key first ≤ key second).Pairwise fun first second =>
      key first < key second ∨ key first = key second ∧ earlier first second := by
  have trans : ∀ first second third, decide (key first ≤ key second) = true →
      decide (key second ≤ key third) = true → decide (key first ≤ key third) = true := by
    simpa using fun _ _ _ => le_trans
  have total : ∀ first second,
      (decide (key first ≤ key second) || decide (key second ≤ key first)) = true := by
    simpa using fun first second => le_total (key first) (key second)
  -- From the back: one more element in front leaves the others as they were sorted.
  induction items with
  | nil => simp
  | cons item items ih =>
    obtain ⟨front, back, sorted, rest, ahead⟩ := List.mergeSort_cons trans total item items
    obtain ⟨beforeItems, ordered⟩ := List.pairwise_cons.mp ordered
    obtain ⟨inFront, inBack, across⟩ := List.pairwise_append.mp (rest ▸ ih ordered)
    have ascending := List.pairwise_mergeSort trans total (item :: items)
    rw [sorted, List.pairwise_append, List.pairwise_cons] at ascending ⊢
    refine ⟨inFront, ⟨fun other member => ?_, inBack⟩, fun other member => ?_⟩
    · have listed : other ∈ items := by
        rw [← List.mem_mergeSort, rest]
        exact List.mem_append_right front member
      have upTo := of_decide_eq_true (ascending.2.1.1 other member)
      exact upTo.lt_or_eq.imp_right fun level => ⟨level, beforeItems other listed⟩
    · -- Only what is strictly below the first element has moved in front of it.
      have below : key other < key item := by simpa using ahead other member
      exact List.forall_mem_cons.mpr ⟨.inl below, across other member⟩

theorem Value.isNull_iff {value : Value} : value.isNull = true ↔ value = null := by
  cases value <;> simp [isNull]

/-! ## Adapters in a line -/

section Line

variable {Rank Adapter : Type}

/-- An adapter that fits, registered at a rank below which none that fits is registered. -/
def IsFirst [LE Rank] (registered : Rank → Adapter → Prop) (fits : Adapter → Bool)
    (adapter : Adapter) : Prop :=
  ∃ rank, registered rank adapter ∧ fits adapter = true ∧
    ∀ other rival, registered other rival → fits rival = true → rank ≤ other

def NoneFits (registered : Rank → Adapter → Prop) (fits : Adapter → Bool) : Prop :=
  ∀ rank adapter, registered rank adapter → fits adapter = false

/-- All registered adapters with their ranks, from the least rank on. -/
structure IsLine [LT Rank] (registered : Rank → Adapter → Prop) (line : List (Rank × Adapter)) :
    Prop where
  ascending : line.Pairwise (·.1 < ·.1)
  lists : ∀ rank adapter, (rank, adapter) ∈ line ↔ registered rank adapter

variable {registered : Rank → Adapter → Prop} {fits : Adapter → Bool} {adapter rival : Adapter}

theorem IsFirst.not_noneFits [LE Rank] (first : IsFirst registered fits adapter) :
    ¬ NoneFits registered fits := by
  obtain ⟨rank, stands, suits, _⟩ := first
  exact fun noneFits => Bool.false_ne_true ((noneFits rank adapter stands).symm.trans suits)

namespace IsLine

variable [PartialOrder Rank] {line : List (Rank × Adapter)}

theorem isFirst_unique (inLine : IsLine registered line) (first : IsFirst registered fits adapter)
    (other : IsFirst registered fits rival) : adapter = rival := by
  obtain ⟨rank, stands, suits, least⟩ := first
  obtain ⟨rank', stands', suits', least'⟩ := other
  obtain rfl := le_antisymm (least _ _ stands' suits') (least' _ _ stands suits)
  have distinct : (line.map Prod.fst).Nodup :=
    List.pairwise_map.mpr (inLine.ascending.imp ne_of_lt)
  exact congrArg Prod.snd (List.inj_on_of_nodup_map distinct ((inLine.lists _ _).mpr stands)
    ((inLine.lists _ _).mpr stands') rfl)

/-- The search along a line ends at the first adapter that fits. -/
theorem isFirst_of_find? (inLine : IsLine registered line) (fits : Adapter → Bool)
    {entry : Rank × Adapter} (found : line.find? (fits ·.2) = some entry) :
    IsFirst registered fits entry.2 := by
  obtain ⟨suits, ahead, behind, rfl, passed⟩ := List.find?_eq_some_iff_append.mp found
  obtain ⟨_, ascending, _⟩ := List.pairwise_append.mp inLine.ascending
  refine ⟨entry.1, (inLine.lists _ _).mp (by simp), suits, fun other rival stands suits' => ?_⟩
  -- Nothing before the entry fits, and ranks behind it are greater.
  rcases List.mem_append.mp ((inLine.lists other rival).mpr stands) with before | rest
  · simpa [suits'] using passed _ before
  · rcases List.mem_cons.mp rest with same | after
    · exact (congrArg Prod.fst same).ge
    · exact ((List.pairwise_cons.mp ascending).1 _ after).le

theorem noneFits_of_find? (inLine : IsLine registered line) (fits : Adapter → Bool)
    (found : line.find? (fits ·.2) = none) : NoneFits registered fits := by
  intro rank adapter stands
  have listed := (inLine.lists rank adapter).mpr stands
  exact Bool.eq_false_iff.mpr (List.find?_eq_none.mp found _ listed)

theorem existsUnique_isFirst_iff (inLine : IsLine registered line) (fits : Adapter → Bool) :
    (∃! adapter, IsFirst registered fits adapter) ↔ ¬ NoneFits registered fits := by
  constructor
  · rintro ⟨adapter, first, _⟩
    exact first.not_noneFits
  · intro fitting
    cases found : line.find? (fits ·.2) with
    | none => exact absurd (inLine.noneFits_of_find? fits found) fitting
    | some entry =>
      have first := inLine.isFirst_of_find? fits found
      exact ⟨entry.2, first, fun _ other => inLine.isFirst_unique other first⟩

end IsLine

end Line

namespace AdapterRegistry

/-! ## The lines of a registry -/

variable {steps : List AdapterStep} {value : Value}

section Numbered

variable {α : Type} {wanted : AdapterStep → Option α}

/-- What the registrations of one kind provide, each with its position among all. -/
def numbered (wanted : AdapterStep → Option α) (steps : List AdapterStep) : List (Nat × α) :=
  steps.zipIdx.filterMap fun (step, position) => (wanted step).map (position, ·)

theorem map_numbered (wanted : AdapterStep → Option α) (steps : List AdapterStep) :
    (numbered wanted steps).map (·.2) = steps.filterMap wanted := by
  calc (numbered wanted steps).map (·.2)
      = steps.zipIdx.filterMap (wanted ∘ Prod.fst) := by
        simp [numbered, List.map_filterMap, Function.comp_def]
    _ = (steps.zipIdx.map Prod.fst).filterMap wanted := List.filterMap_map.symm
    _ = steps.filterMap wanted := by rw [List.zipIdx_map_fst]

theorem mem_numbered {position : Nat} {item : α} :
    (position, item) ∈ numbered wanted steps ↔
      ∃ step, steps[position]? = some step ∧ wanted step = some item := by
  simp [numbered, List.mk_mem_zipIdx_iff_getElem?]

theorem numbered_ascending (wanted : AdapterStep → Option α) (steps : List AdapterStep) :
    (numbered wanted steps).Pairwise (·.1 < ·.1) := by
  have positions : steps.zipIdx.Pairwise (·.2 < ·.2) := by
    rw [← List.pairwise_map, List.zipIdx_map_snd]
    exact List.pairwise_lt_range'
  refine List.pairwise_filterMap.mpr (positions.imp fun less item given item' given' => ?_)
  obtain ⟨_, _, rfl⟩ := Option.map_eq_some_iff.mp given
  obtain ⟨_, _, rfl⟩ := Option.map_eq_some_iff.mp given'
  exact less

end Numbered

/-- A traversal was registered at the position. -/
def TraversalAt (steps : List AdapterStep) (position : Nat) (traversal : Traversal) : Prop :=
  steps[position]? = some (.traversal traversal)

/-- A wrapper was registered with the priority, and at the position, of the rank. -/
def WrapperAt (steps : List AdapterStep) (rank : Int ×ₗ Nat) (wrapper : Wrapper) : Prop :=
  steps[(ofLex rank).2]? = some (.wrapper (ofLex rank).1 wrapper)

theorem wrapper?_eq_some_iff {step : AdapterStep} {priority : Int} {wrapper : Wrapper} :
    step.wrapper? = some (priority, wrapper) ↔ step = .wrapper priority wrapper := by
  cases step <;> simp [AdapterStep.wrapper?]

theorem traversal?_eq_some_iff {step : AdapterStep} {traversal : Traversal} :
    step.traversal? = some traversal ↔ step = .traversal traversal := by
  cases step <;> simp [AdapterStep.traversal?]

/-- The traversals with their positions. -/
def traversalLine (steps : List AdapterStep) : List (Nat × Traversal) :=
  numbered AdapterStep.traversal? steps

/-- The wrappers with their ranks, sorted by priority as the registry sorts them. -/
def wrapperLine (steps : List AdapterStep) : List ((Int ×ₗ Nat) × Wrapper) :=
  ((numbered AdapterStep.wrapper? steps).mergeSort fun first second => first.2.1 ≤ second.2.1).map
    fun (position, priority, wrapper) => (toLex (priority, position), wrapper)

theorem traversals_eq (steps : List AdapterStep) :
    (ofSteps steps).traversals = (traversalLine steps).map (·.2) :=
  (map_numbered _ steps).symm

theorem wrappers_eq (steps : List AdapterStep) :
    (ofSteps steps).wrappers =
      (wrapperLine steps).map fun entry => ((ofLex entry.1).1, entry.2) := by
  calc (ofSteps steps).wrappers
      = ((numbered AdapterStep.wrapper? steps).map (·.2)).mergeSort
          fun first second => first.1 ≤ second.1 := by rw [map_numbered, ofSteps]
    _ = ((numbered AdapterStep.wrapper? steps).mergeSort
          fun first second => first.2.1 ≤ second.2.1).map (·.2) :=
        (List.map_mergeSort (f := Prod.snd) fun _ _ _ _ => rfl).symm
    _ = (wrapperLine steps).map fun entry => ((ofLex entry.1).1, entry.2) := by
        rw [wrapperLine, List.map_map]
        rfl

theorem traversalLine_isLine (steps : List AdapterStep) :
    IsLine (TraversalAt steps) (traversalLine steps) where
  ascending := numbered_ascending _ steps
  lists position traversal := by
    simp [traversalLine, mem_numbered, traversal?_eq_some_iff, TraversalAt]

theorem wrapperLine_isLine (steps : List AdapterStep) :
    IsLine (WrapperAt steps) (wrapperLine steps) where
  ascending := by
    -- Positions ascend before sorting, so they still do where priorities are equal.
    have sorted := pairwise_mergeSort_by (fun entry : Nat × Int × Wrapper => entry.2.1)
      (numbered_ascending AdapterStep.wrapper? steps)
    exact List.pairwise_map.mpr (sorted.imp Prod.Lex.toLex_lt_toLex.mpr)
  lists rank wrapper := by
    simp only [wrapperLine, List.mem_map, List.mem_mergeSort]
    constructor
    · rintro ⟨⟨position, priority, wrapper⟩, listed, ⟨⟩⟩
      obtain ⟨step, stands, ofKind⟩ := mem_numbered.mp listed
      rwa [wrapper?_eq_some_iff.mp ofKind] at stands
    · exact fun stands => ⟨_, mem_numbered.mpr ⟨_, stands, rfl⟩, rfl⟩

/-! ## What is consulted -/

/-- What a value is opened to. The first wrapper that applies decides, also if it finds nothing; a
value to which none applies stays as it is. -/
inductive Opens (steps : List AdapterStep) (value : Value) : Option Value → Prop
  | layer {wrapper : Wrapper} (first : IsFirst (WrapperAt steps) (·.appliesTo value) wrapper) :
      Opens steps value (wrapper.unwrap value)
  | whole (noneFits : NoneFits (WrapperAt steps) (·.appliesTo value)) :
      Opens steps value (some value)

theorem unwrap_opens (steps : List AdapterStep) (value : Value) :
    ∃ opened, Opens steps value opened ∧
      (ofSteps steps).unwrap value = opened.filter (!·.isNull) := by
  have inLine := wrapperLine_isLine steps
  rw [unwrap, wrappers_eq, List.find?_map, Function.comp_def]
  dsimp only
  cases found : (wrapperLine steps).find? fun entry => entry.2.appliesTo value with
  | none => exact ⟨_, .whole (inLine.noneFits_of_find? (·.appliesTo value) found), rfl⟩
  | some entry => exact ⟨_, .layer (inLine.isFirst_of_find? (·.appliesTo value) found), rfl⟩

theorem Opens.unique {opened other : Option Value} (opens : Opens steps value opened)
    (opens' : Opens steps value other) : opened = other := by
  cases opens with
  | layer first =>
    cases opens' with
    | layer first' => rw [(wrapperLine_isLine steps).isFirst_unique first first']
    | whole noneFits => exact absurd noneFits first.not_noneFits
  | whole noneFits =>
    cases opens' with
    | layer first => exact absurd noneFits first.not_noneFits
    | whole => rfl

theorem iterate_lists (steps : List AdapterStep) (value : Value) :
    (∃ traversal, IsFirst (TraversalAt steps) (·.shape == value.shape) traversal ∧
      (ofSteps steps).iterate value = .ok (traversal.elements value)) ∨
    NoneFits (TraversalAt steps) (·.shape == value.shape) ∧
      (ofSteps steps).iterate value = .error (.missingTraversal value.shape value.typeName) := by
  have inLine := traversalLine_isLine steps
  rw [iterate, traversals_eq, List.find?_map, Function.comp_def]
  cases found : (traversalLine steps).find? fun entry => entry.2.shape == value.shape with
  | none => exact .inr ⟨inLine.noneFits_of_find? (·.shape == value.shape) found, rfl⟩
  | some entry => exact .inl ⟨_, inLine.isFirst_of_find? (·.shape == value.shape) found, rfl⟩

theorem unwrap_eq_some_iff {part : Value} :
    (ofSteps steps).unwrap value = some part ↔ Opens steps value (some part) ∧ part ≠ .null := by
  obtain ⟨opened, opens, returned⟩ := unwrap_opens steps value
  rw [returned, Option.filter_eq_some_iff, Bool.not_eq_true', Bool.eq_false_iff, ne_eq,
    Value.isNull_iff]
  exact and_congr_left' ⟨fun same => same ▸ opens, fun opens' => opens.unique opens'⟩

theorem iterate_eq_ok_iff {elements : List (ElementKey × Value)} :
    (ofSteps steps).iterate value = .ok elements ↔
      ∃ traversal, IsFirst (TraversalAt steps) (·.shape == value.shape) traversal ∧
        traversal.elements value = elements := by
  rcases iterate_lists steps value with ⟨traversal, first, listed⟩ | ⟨noneFits, failed⟩
  · rw [listed, Except.ok.injEq]
    refine ⟨fun same => ⟨traversal, first, same⟩, ?_⟩
    rintro ⟨other, first', rfl⟩
    rw [(traversalLine_isLine steps).isFirst_unique first first']
  · rw [failed]
    exact iff_of_false nofun fun ⟨_, first, _⟩ => first.not_noneFits noneFits

theorem iterate_eq_error_iff {failure : InstanceError} :
    (ofSteps steps).iterate value = .error failure ↔
      NoneFits (TraversalAt steps) (·.shape == value.shape) ∧
        failure = .missingTraversal value.shape value.typeName := by
  rcases iterate_lists steps value with ⟨traversal, first, listed⟩ | ⟨noneFits, failed⟩
  · rw [listed]
    exact iff_of_false nofun fun ⟨noneFits, _⟩ => first.not_noneFits noneFits
  · rw [failed, Except.error.injEq, eq_comm]
    exact (and_iff_right noneFits).symm

/-- In a registry made by any registrations, the wrapper that is consulted about a value is the one
of least priority among those that apply, and of several such the one registered first; there is
exactly one unless none applies. The value is opened to what this wrapper finds, or stays as it is,
but a null is never returned. A collection is listed by the traversal registered first for its
shape, and listing fails exactly if there is none. -/
theorem consulted_adapters_rank_first (steps : List AdapterStep) (value : Value) :
    ((∃! wrapper, IsFirst (WrapperAt steps) (·.appliesTo value) wrapper) ↔
      ¬ NoneFits (WrapperAt steps) (·.appliesTo value)) ∧
    (∀ part, (ofSteps steps).unwrap value = some part ↔
      Opens steps value (some part) ∧ part ≠ .null) ∧
    (∀ elements, (ofSteps steps).iterate value = .ok elements ↔
      ∃ traversal, IsFirst (TraversalAt steps) (·.shape == value.shape) traversal ∧
        traversal.elements value = elements) ∧
    ∀ failure, (ofSteps steps).iterate value = .error failure ↔
      NoneFits (TraversalAt steps) (·.shape == value.shape) ∧
        failure = .missingTraversal value.shape value.typeName :=
  ⟨(wrapperLine_isLine steps).existsUnique_isFirst_iff _, fun _ => unwrap_eq_some_iff,
    fun _ => iterate_eq_ok_iff, fun _ => iterate_eq_error_iff⟩

/-- Of two wrappers of one priority the earlier is consulted, but before it one of lower priority,
however late it was registered. -/
example :
    let steps := [.wrapper 1 .optional, .traversal .reversed, .wrapper 1 .nothing, .traversal .list]
    [steps, steps ++ [.wrapper 0 .nothing]].map (fun steps =>
      (ofSteps steps).unwrap (.present (.bool true))) = [some (.bool true), none] := by
  cbv

end AdapterRegistry

end Rulebook

import Mathlib.Tactic.Tauto
import Rulebook.Expression.Formula

/-!
# References

The references of a formula list the names that it reads and those that it flags. Which of them are
read from another context is decided by the flags alone, whatever the expression reads.
-/
namespace Rulebook

/-- An insertion adds the name and keeps the others. -/
theorem mem_insertName (name other : String) (names : List String) :
    name ∈ insertName other names ↔ name = other ∨ name ∈ names := by
  induction names with
  | nil => simp [insertName]
  | cons head rest ih =>
    unfold insertName
    split
    next => exact List.mem_cons
    next =>
      split
      next same => simp only [same, List.mem_cons, or_self_left]
      next =>
        simp only [List.mem_cons, ih]
        tauto

/-- Sorting names neither adds nor loses any. -/
theorem mem_sortNames (name : String) (names : List String) :
    name ∈ sortNames names ↔ name ∈ names := by
  induction names with
  | nil => rfl
  | cons head rest ih =>
    show name ∈ insertName head (sortNames rest) ↔ _
    rw [mem_insertName, ih, List.mem_cons]

namespace Formula

/-- Flagging a name lists it and keeps the others. -/
theorem mem_names_flag (name flagged : String) (references : List Reference) :
    name ∈ (flag flagged references).map (·.name) ↔
      name = flagged ∨ name ∈ references.map (·.name) := by
  induction references with
  | nil => simp [flag]
  | cons reference rest ih =>
    unfold flag
    split
    next found => simp only [List.map_cons, List.mem_cons, found, or_self_left]
    next =>
      simp only [List.map_cons, List.mem_cons, ih]
      tauto

/-- Flags in turn are all listed. -/
theorem mem_names_foldl_flag (name : String) (flags : List String)
    (references : List Reference) :
    name ∈ (flags.foldl (fun references name => flag name references) references).map (·.name) ↔
      name ∈ flags ∨ name ∈ references.map (·.name) := by
  induction flags generalizing references with
  | nil => simp
  | cons flagged flags ih =>
    rw [List.foldl_cons, ih, mem_names_flag, List.mem_cons]
    tauto

/-- The references are the free names of the expression and the flagged names. -/
theorem mem_names_references_iff (formula : Formula) (name : String) :
    name ∈ formula.references.map (·.name) ↔
      name ∈ formula.flagged ∨ name ∈ formula.expression.freeNames [] := by
  have unflagged (names : List String) :
      (names.map fun name => (⟨name, false⟩ : Reference)).map (·.name) = names := by
    simp [Function.comp_def]
  rw [references, mem_names_foldl_flag, unflagged, mem_sortNames]

/-- The names among references that come from another context. -/
def crossContextNames (references : List Reference) : List String :=
  (references.filter (·.crossContext)).map (·.name)

theorem mem_crossContextNames_cons (name : String) (reference : Reference)
    (rest : List Reference) :
    name ∈ crossContextNames (reference :: rest) ↔
      (reference.crossContext = true ∧ name = reference.name) ∨ name ∈ crossContextNames rest := by
  unfold crossContextNames
  cases flagged : reference.crossContext <;> simp [flagged]

/-- Flagging a name makes it one from another context and leaves the others what they are. -/
theorem mem_crossContextNames_flag (name flagged : String) (references : List Reference) :
    name ∈ crossContextNames (flag flagged references) ↔
      name = flagged ∨ name ∈ crossContextNames references := by
  induction references with
  | nil => simp [flag, crossContextNames]
  | cons reference rest ih =>
    unfold flag
    split
    next found =>
      -- What is replaced has the flagged name already.
      simp only [mem_crossContextNames_cons, true_and, found]
      tauto
    next =>
      simp only [mem_crossContextNames_cons, ih]
      tauto

/-- After flags in turn, exactly these come from another context, beside those that did before. -/
theorem mem_crossContextNames_foldl (name : String) (flags : List String)
    (references : List Reference) :
    name ∈ crossContextNames (flags.foldl (fun references name => flag name references) references)
      ↔ name ∈ flags ∨ name ∈ crossContextNames references := by
  induction flags generalizing references with
  | nil => simp
  | cons flagged flags ih =>
    rw [List.foldl_cons, ih, mem_crossContextNames_flag, List.mem_cons]
    tauto

/-- Exactly the flagged names are read from another context. -/
theorem mem_crossNames_iff (formula : Formula) (name : String) :
    name ∈ formula.crossNames ↔ name ∈ formula.flagged := by
  have unflagged (names : List String) :
      crossContextNames (names.map fun name => ⟨name, false⟩) = [] := by
    simp [crossContextNames]
  calc name ∈ formula.crossNames
      ↔ name ∈ formula.flagged ∨ name ∈ crossContextNames
          ((sortNames (formula.expression.freeNames [])).map fun name => ⟨name, false⟩) :=
        mem_crossContextNames_foldl name formula.flagged _
    _ ↔ name ∈ formula.flagged := by simp [unflagged]

end Formula

end Rulebook

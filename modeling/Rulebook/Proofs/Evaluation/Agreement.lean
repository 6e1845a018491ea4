import Mathlib.Data.List.Forall2
import Rulebook.Evaluation.Traced

/-!
# Runs that agree

Two runs are compared by how they end and by what they note on the way. What counts as the same
end is a parameter: a relation of values, a relation of halts, and the halts of the first run after
which nothing is asked of the second. The comparison is carried through the sequencing of traced
results, so that comparing two evaluations comes down to comparing their steps.
-/
namespace Rulebook

section

variable {ε α β γ δ : Type} {settled : ε → Prop} {related : α → β → Prop} {further : γ → δ → Prop}

/-- Two outcomes with related values, or with one and the same error of a settled kind. -/
inductive Alike (settled : ε → Prop) (related : α → β → Prop) : Except ε α → Except ε β → Prop
  | ok {left : α} {right : β} (same : related left right) :
      Alike settled related (.ok left) (.ok right)
  | error {error : ε} (kind : settled error) : Alike settled related (.error error) (.error error)

namespace Alike

/-- An outcome is like itself if its errors are settled. -/
theorem refl (outcome : Except ε α) (kinds : ∀ error, outcome = .error error → settled error) :
    Alike settled Eq outcome outcome := by
  cases outcome with
  | ok value => exact .ok rfl
  | error error => exact .error (kinds error rfl)

/-- An outcome that is like itself in any way fails only with settled errors. -/
theorem settled_of_self {related : α → α → Prop} {outcome : Except ε α}
    (alike : Alike settled related outcome outcome) : Alike settled Eq outcome outcome := by
  cases alike with
  | ok same => exact .ok rfl
  | error kind => exact .error kind

/-- Sequencing keeps outcomes alike if the continuations do so on related values. -/
theorem bind {first : Except ε α} {second : Except ε β} {next : α → Except ε γ}
    {next' : β → Except ε δ} (start : Alike settled related first second)
    (continues : ∀ left right, related left right →
      Alike settled further (next left) (next' right)) :
    Alike settled further (first >>= next) (second >>= next') := by
  cases start with
  | ok same => exact continues _ _ same
  | error kind => exact .error kind

theorem map {first : Except ε α} {second : Except ε β} {apply : α → γ} {apply' : β → δ}
    (start : Alike settled related first second)
    (applied : ∀ left right, related left right → further (apply left) (apply' right)) :
    Alike settled further (first.map apply) (second.map apply') := by
  cases start with
  | ok same => exact .ok (applied _ _ same)
  | error kind => exact .error kind

/-- Mapping keeps outcomes alike, element by element; the first error ends both. -/
theorem mapM {apply : α → Except ε γ} {apply' : β → Except ε δ} {lefts : List α} {rights : List β}
    (same : List.Forall₂ related lefts rights)
    (applied : ∀ left right, related left right →
      Alike settled further (apply left) (apply' right)) :
    Alike settled (List.Forall₂ further) (lefts.mapM apply) (rights.mapM apply') := by
  -- By induction on the elements that correspond, as both lists are worked off together.
  induction same with
  | nil => exact .ok .nil
  | cons head _ ih =>
    simp only [List.mapM_cons]
    exact (applied _ _ head).bind fun _ _ first => ih.bind fun _ _ rest => .ok (.cons first rest)

/-- So does folding, from related starts. -/
theorem foldlM {apply : γ → α → Except ε γ} {apply' : δ → β → Except ε δ} {lefts : List α}
    {rights : List β} (same : List.Forall₂ related lefts rights)
    (applied : ∀ start start' left right, further start start' → related left right →
      Alike settled further (apply start left) (apply' start' right))
    {start : γ} {start' : δ} (starts : further start start') :
    Alike settled further (lefts.foldlM apply start) (rights.foldlM apply' start') := by
  induction same generalizing start start' with
  | nil => exact .ok starts
  | cons head _ ih =>
    simp only [List.foldlM_cons]
    exact (applied _ _ _ _ starts head).bind fun _ _ next => ih next

end Alike

end

/-- A technical failure other than too deep a nesting. -/
def Halt.IsOrdinary : Halt → Prop
  | .technical (.recursionLimit _) => False
  | .technical _ => True
  | .skip _ => False

/-- What it takes for two runs to end alike. -/
structure Agreement where
  values : Value → Value → Prop
  halts : Halt → Halt → Prop
  waived : Halt → Prop

namespace Traced

variable {ε α β γ δ : Type} {agreement : Agreement} {related : α → β → Prop}
  {further : γ → δ → Prop}

/-- The second run ends like the first and notes the same, unless the first one ends with a halt
that is waived. -/
inductive Follows (agreement : Agreement) (related : α → β → Prop) : Traced α → Traced β → Prop
  | value {left : α} {right : β} (notes : List Diagnostic) (same : related left right) :
      Follows agreement related ⟨.ok left, notes⟩ ⟨.ok right, notes⟩
  | halt {left right : Halt} (notes : List Diagnostic) (same : agreement.halts left right) :
      Follows agreement related ⟨.error left, notes⟩ ⟨.error right, notes⟩
  | waived {halt : Halt} (notes : List Diagnostic) (other : Traced β)
      (waived : agreement.waived halt) : Follows agreement related ⟨.error halt, notes⟩ other

namespace Follows

theorem pure {left : α} {right : β} (same : related left right) :
    Follows agreement related (Traced.pure left) (Traced.pure right) :=
  .value [] same

/-- What was noted before does not matter. -/
theorem behind (notes : List Diagnostic) {first : Traced α} {second : Traced β}
    (follows : Follows agreement related first second) :
    Follows agreement related ⟨first.outcome, notes ++ first.diagnostics⟩
      ⟨second.outcome, notes ++ second.diagnostics⟩ := by
  cases follows with
  | value rest same => exact .value _ same
  | halt rest same => exact .halt _ same
  | waived rest other waived => exact .waived _ _ waived

/-- Sequencing keeps runs following each other if the continuations do so on related values. -/
theorem bind {first : Traced α} {second : Traced β} {next : α → Traced γ} {next' : β → Traced δ}
    (start : Follows agreement related first second)
    (continues : ∀ left right, related left right →
      Follows agreement further (next left) (next' right)) :
    Follows agreement further (first >>= next) (second >>= next') := by
  cases start with
  | value notes same => exact (continues _ _ same).behind notes
  | halt notes same => exact .halt notes same
  | waived notes other waived => exact .waived notes _ waived

/-- An outcome that notes nothing follows one that is alike. -/
theorem ofExcept (ordinary : ∀ halt : Halt, halt.IsOrdinary → agreement.halts halt halt)
    {first : Except Halt α} {second : Except Halt β}
    (alike : Alike Halt.IsOrdinary related first second) :
    Follows agreement related (Traced.ofExcept first) (Traced.ofExcept second) := by
  cases alike with
  | ok same => exact .value [] same
  | error kind => exact .halt [] (ordinary _ kind)

/-- The same of an outcome whose errors are told as causes. -/
theorem lift (ordinary : ∀ halt : Halt, halt.IsOrdinary → agreement.halts halt halt)
    {cause : ε → TechnicalCause} {first : Except ε α} {second : Except ε β}
    (alike : Alike (fun error => (Halt.technical (cause error)).IsOrdinary) related first second) :
    Follows agreement related (Traced.lift cause first) (Traced.lift cause second) := by
  cases alike with
  | ok same => exact .value [] same
  | error kind => exact .halt [] (ordinary _ kind)

/-- Mapping over related elements follows if every element does. -/
theorem mapAll {apply : α → Traced γ} {apply' : β → Traced δ} {lefts : List α} {rights : List β}
    (same : List.Forall₂ related lefts rights)
    (applied : ∀ left right, related left right →
      Follows agreement further (apply left) (apply' right)) :
    Follows agreement (List.Forall₂ further) (Traced.mapAll apply lefts)
      (Traced.mapAll apply' rights) := by
  induction same with
  | nil => exact pure .nil
  | cons head _ ih =>
    exact (applied _ _ head).bind fun _ _ first => ih.bind fun _ _ rest => pure (.cons first rest)

/-- Filtering related elements follows if their tests end with the same answers. -/
theorem filterAll {test : α → Traced Bool} {test' : β → Traced Bool} {lefts : List α}
    {rights : List β} (same : List.Forall₂ related lefts rights)
    (tested : ∀ left right, related left right → Follows agreement Eq (test left) (test' right)) :
    Follows agreement (List.Forall₂ related) (Traced.filterAll test lefts)
      (Traced.filterAll test' rights) := by
  induction same with
  | nil => exact pure .nil
  | cons head _ ih =>
    refine (tested _ _ head).bind fun holds _ equal => ih.bind fun _ _ rest => ?_
    subst equal
    cases holds with
    | true => exact pure (.cons head rest)
    | false => exact pure rest

/-- Searches stop at the same element if related answers settle both of them or none. -/
theorem search_of_settles {answers : Bool → Bool → Prop} {wanted wanted' : Bool}
    (settles : ∀ answer answer', answers answer answer' → (answer = wanted ↔ answer' = wanted'))
    {test : α → Traced Bool} {test' : β → Traced Bool} {lefts : List α} {rights : List β}
    (same : List.Forall₂ related lefts rights)
    (tested : ∀ left right, related left right →
      Follows agreement answers (test left) (test' right)) :
    Follows agreement Eq (Traced.search wanted test lefts)
      (Traced.search wanted' test' rights) := by
  induction same with
  | nil => exact pure rfl
  | cons head _ ih =>
    refine (tested _ _ head).bind fun answer answer' agree => ?_
    -- Where the first answer settles the search, the other one does so as well, and the rest is not
    -- run.
    by_cases settled : answer = wanted
    · rw [if_pos settled, if_pos ((settles _ _ agree).mp settled)]
      exact pure rfl
    · rw [if_neg settled, if_neg (settled ∘ (settles _ _ agree).mpr)]
      exact ih

/-- Searches with the same answers stop at the same element. -/
theorem search (wanted : Bool) {test : α → Traced Bool} {test' : β → Traced Bool}
    {lefts : List α} {rights : List β} (same : List.Forall₂ related lefts rights)
    (tested : ∀ left right, related left right → Follows agreement Eq (test left) (test' right)) :
    Follows agreement Eq (Traced.search wanted test lefts) (Traced.search wanted test' rights) :=
  search_of_settles (fun _ _ equal => by rw [equal]) same tested

/-- Runs that follow each other in values and halts are the same, unless the halt is waived. -/
theorem eq_of_not_waived {first second : Traced α} (follows : Follows agreement Eq first second)
    (same : ∀ left right, agreement.halts left right → left = right)
    (kept : ∀ halt, first.outcome = .error halt → ¬ agreement.waived halt) : second = first := by
  cases follows with
  | value notes equal => rw [equal]
  | halt notes related => rw [same _ _ related]
  | waived notes other waived => exact absurd waived (kept _ rfl)

end Follows

end Traced

end Rulebook

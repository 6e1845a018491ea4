import Rulebook.Function.Library
import Rulebook.Proofs.Evaluation.Agreement
import Rulebook.Proofs.Value.Reading

/-!
# Functions of values of one content

The built-in functions cannot tell values of one content apart: given such arguments, two calls of
a function give values of one content or fail alike. Arguments are read alike first; then every
function is followed through the steps that it is written in.
-/
namespace Rulebook

open List (Forall₂)
open Value (SameContent)

namespace Argument

variable {lefts rights : List Value}

theorem expectCount_alike (same : Forall₂ SameContent lefts rights) (least greatest : Nat)
    (expected : String) :
    Alike (fun _ => True) Eq (expectCount least greatest expected lefts)
      (expectCount least greatest expected rights) := by
  rw [expectCount, expectCount, same.length_eq]
  exact .refl _ fun _ _ => trivial

/-- A missing argument is null on both sides. -/
theorem get_content (same : Forall₂ SameContent lefts rights) (position : Nat) :
    SameContent (get lefts position) (get rights position) :=
  Value.forall₂_getD_null same position

/-- An argument is read as numbers of one value, or refused on both sides. -/
theorem number?_alike (same : Forall₂ SameContent lefts rights) (position : Nat) :
    Alike (fun _ => True) (Option.Rel Decimal.SameValue) (number? lefts position)
      (number? rights position) := by
  have argument := get_content same position
  unfold number?
  generalize get lefts position = value at argument ⊢
  generalize get rights position = value' at argument ⊢
  cases argument with
  | null => exact .ok .none
  | number amount => exact .ok (.some amount)
  | money amount _ => exact .ok (.some amount)
  | _ => exact .error trivial

theorem places?_alike (same : Forall₂ SameContent lefts rights) (position : Nat) :
    Alike (fun _ => True) Eq (places? lefts position) (places? rights position) := by
  refine (number?_alike same position).bind fun found found' number => ?_
  cases number with
  | none => exact .ok rfl
  | some amount =>
    simp only [Decimal.toInteger?_eq_of_toRat_eq amount]
    exact .refl _ fun _ _ => trivial

theorem text?_alike (same : Forall₂ SameContent lefts rights) (position : Nat) :
    Alike (fun _ => True) Eq (text? lefts position) (text? rights position) := by
  have argument := get_content same position
  unfold text?
  generalize get lefts position = value at argument ⊢
  generalize get rights position = value' at argument ⊢
  cases argument with
  | null => exact .ok rfl
  | text characters => exact .ok rfl
  | _ => exact .error trivial

theorem members_alike (same : Forall₂ SameContent lefts rights) (position : Nat) :
    Alike (fun _ => True) (Forall₂ SameContent) (members lefts position)
      (members rights position) := by
  have argument := get_content same position
  unfold members
  generalize get lefts position = value at argument ⊢
  generalize get rights position = value' at argument ⊢
  cases argument with
  | null => exact .ok .nil
  | list items => exact .ok (Value.forall₂_filter_notNull (Value.sameItems_iff_forall₂.mp items))
  | map entries => exact .ok (Value.forall₂_filter_notNull entries.values)
  | _ => exact .error trivial

theorem element_alike {left right : Value} (same : left.SameContent right) :
    Alike (fun _ => True) Decimal.SameValue (element left) (element right) := by
  cases same with
  | number amount => exact .ok amount
  | money amount _ => exact .ok amount
  | _ => exact .error trivial

theorem amounts_alike (same : Forall₂ SameContent lefts rights) :
    Alike (fun _ => True) (Forall₂ Decimal.SameValue) (amounts lefts) (amounts rights) :=
  (members_alike same 0).bind fun _ _ listed => Alike.mapM listed fun _ _ => element_alike

end Argument

namespace Builtin

open Argument

/-- A function that does not tell arguments of one content apart. -/
def RespectsContent (function : Function) : Prop :=
  ∀ {lefts rights : List Value} (clock : Clock), Forall₂ SameContent lefts rights →
    Alike (fun _ => True) SameContent (function lefts clock) (function rights clock)

/-- What does not depend on the numbers in the arguments is the same. -/
theorem content_self (outcome : Except FunctionError Value) :
    Alike (fun _ => True) SameContent outcome outcome := by
  cases outcome with
  | ok value => exact .ok (.refl value)
  | error error => exact .error trivial

/-! ## Collections -/

theorem count_respects : RespectsContent count := fun _ same =>
  (expectCount_alike same 1 1 "1").bind fun _ _ _ =>
    (members_alike same 0).bind fun _ _ listed => by
      rw [listed.length_eq]
      exact content_self _

/-- Sums of numbers of the same values are equal, or overflow at the same number. -/
theorem foldlM_add_eq {lefts rights : List Decimal} (same : Forall₂ Decimal.SameValue lefts rights)
    (start : Decimal) : lefts.foldlM Arithmetic.add start = rights.foldlM Arithmetic.add start := by
  induction same generalizing start with
  | nil => rfl
  | cons head _ ih =>
    rw [List.foldlM_cons, List.foldlM_cons,
      Arithmetic.add_seesValues (Eq.refl start.toRat) head]
    exact bind_congr ih

theorem total_eq {lefts rights : List Decimal} (same : Forall₂ Decimal.SameValue lefts rights) :
    total lefts = total rights :=
  foldlM_add_eq same .zero

theorem sum_respects : RespectsContent sum := fun _ same =>
  (expectCount_alike same 1 1 "1").bind fun _ _ _ => (amounts_alike same).bind fun _ _ listed => by
    rw [total_eq listed]
    exact content_self _

theorem average_respects : RespectsContent average := fun _ same =>
  (expectCount_alike same 1 1 "1").bind fun _ _ _ => (amounts_alike same).bind fun _ _ listed => by
    -- Both collections are empty or none is, so both divide or none does.
    have empty := iff_of_eq (congrArg (· = 0) listed.length_eq)
    rw [← List.isEmpty_iff_length_eq_zero, ← List.isEmpty_iff_length_eq_zero, ← Bool.eq_iff_iff]
      at empty
    rw [empty, total_eq listed, listed.length_eq]
    exact content_self _

theorem rank_eq {candidate candidate' best best' : Value} (same : candidate.SameContent candidate')
    (same' : best.SameContent best') : rank candidate best = rank candidate' best' := by
  cases same' with
  | number amount' | money amount' _ =>
    cases same with
    | number amount | money amount _ =>
      exact congrArg Except.ok (Arithmetic.order_eq_of_toRat_eq amount amount')
    | _ => rfl
  | _ => cases same <;> rfl

theorem isRankable_eq {left right : Value} (same : left.SameContent right) :
    isRankable left = isRankable right := by
  cases same <;> rfl

theorem better_alike (wanted : Ordering) {best best' : Option Value} {candidate candidate' : Value}
    (bests : Option.Rel SameContent best best') (same : candidate.SameContent candidate') :
    Alike (fun _ => True) (Option.Rel SameContent) (better wanted best candidate)
      (better wanted best' candidate') := by
  cases bests with
  | none =>
    simp only [better, isRankable_eq same, mismatch, same.typeName_eq]
    -- The same one of both is better.
    split
    · exact .ok (.some same)
    · exact .error trivial
  | some best =>
    simp only [better, rank_eq same best]
    refine Alike.bind (.refl _ fun _ _ => trivial) fun ordering _ equal => ?_
    subst equal
    split
    · exact .ok (.some same)
    · exact .ok (.some best)

theorem best_respects (wanted : Ordering) : RespectsContent (best wanted) := fun _ same =>
  (expectCount_alike same 1 1 "1").bind fun _ _ _ => (members_alike same 0).bind fun _ _ listed =>
    (Alike.foldlM listed (fun _ _ _ _ => better_alike wanted) .none).bind fun _ _ found => by
      cases found with
      | none => exact .ok .null
      | some value => exact .ok value

mutual

theorem flatten_content {left right : Value} (same : left.SameContent right) :
    Forall₂ SameContent (flatten left) (flatten right) := by
  have single := same
  cases same with
  | null =>
    simp only [flatten]
    exact .nil
  | list items =>
    simp only [flatten]
    exact flattenAll_content items
  | _ =>
    simp only [flatten]
    exact .cons single .nil

theorem flattenAll_content {lefts rights : List Value} :
    Value.SameItems lefts rights → Forall₂ SameContent (flattenAll lefts) (flattenAll rights)
  | .nil => .nil
  | .cons item items => by
    simp only [flattenAll]
    exact List.rel_append (flatten_content item) (flattenAll_content items)

end

theorem flat_respects : RespectsContent flat := fun _ same =>
  (expectCount_alike same 1 1 "1").bind fun _ _ _ =>
    .ok (.list (Value.sameItems_iff_forall₂.mpr (flatten_content (get_content same 0))))

/-! ## Numbers -/

theorem roundBy_respects (tie : Tie) : RespectsContent (roundBy tie) := fun _ same =>
  (expectCount_alike same 1 2 "1 or 2").bind fun _ _ _ =>
    (number?_alike same 0).bind fun _ _ number => by
      cases number with
      | none => exact .ok .null
      | some amount =>
        refine (places?_alike same 1).bind fun places _ equal => ?_
        subst equal
        rw [Arithmetic.roundAt_eq_of_toRat_eq tie _ amount]
        exact content_self _

theorem onNumber_respects {apply : Decimal → Decimal}
    (sees : ∀ {left right : Decimal}, left.toRat = right.toRat → apply left = apply right) :
    RespectsContent (onNumber apply) := fun _ same =>
  (expectCount_alike same 1 1 "1").bind fun _ _ _ =>
    (number?_alike same 0).bind fun _ _ number => by
      cases number with
      | none => exact .ok .null
      | some amount =>
        simp only [sees amount]
        exact content_self _

theorem inNumberSet_respects : RespectsContent inNumberSet := fun _ same =>
  (expectCount_alike same 4 4 "4").bind fun _ _ _ =>
    (number?_alike same 0).bind fun _ _ number => by
      cases number with
      | none => exact .ok (.bool false)
      | some amount =>
        refine (number?_alike same 1).bind fun lower lower' sameLower =>
          (number?_alike same 2).bind fun upper upper' sameUpper =>
            (number?_alike same 3).bind fun step step' sameStep => ?_
        -- Membership sees the values of the bounds and of the step.
        have contained := @NumberSet.contains_eq_of_toRat_eq ⟨lower, upper, step⟩
          ⟨lower', upper', step'⟩ _ _ amount sameLower sameUpper sameStep
        simp only [contained]
        exact content_self _

/-! ## Dates -/

theorem today_respects : RespectsContent today := fun _ same =>
  (expectCount_alike same 0 0 "0").bind fun _ _ _ => content_self _

theorem now_respects : RespectsContent now := fun _ same =>
  (expectCount_alike same 0 0 "0").bind fun _ _ _ => content_self _

theorem date_respects : RespectsContent date := fun _ same =>
  (expectCount_alike same 1 1 "1").bind fun _ _ _ => by
    have argument := get_content same 0
    generalize get _ 0 = value at argument ⊢
    generalize get _ 0 = value' at argument ⊢
    cases argument with
    | null | date _ | dateTime _ | text _ => exact content_self _
    | _ => exact .error trivial

theorem dateTime_respects : RespectsContent dateTime := fun _ same =>
  (expectCount_alike same 1 1 "1").bind fun _ _ _ => by
    have argument := get_content same 0
    generalize get _ 0 = value at argument ⊢
    generalize get _ 0 = value' at argument ⊢
    cases argument with
    | null | date _ | dateTime _ | text _ => exact content_self _
    | _ => exact .error trivial

theorem plusDays_respects : RespectsContent plusDays := fun _ same =>
  (expectCount_alike same 2 2 "2").bind fun _ _ _ =>
    (number?_alike same 1).bind fun _ _ number => by
      cases number with
      | none => exact .ok .null
      | some amount =>
        have argument := get_content same 0
        simp only [wholeDays?, Decimal.toInteger?_eq_of_toRat_eq amount, mismatch,
          (get_content same 1).typeName_eq]
        generalize get _ 0 = value at argument ⊢
        generalize get _ 0 = value' at argument ⊢
        -- Whether the number is a whole number of days depends on its value alone.
        split
        next => exact .error trivial
        next days =>
          cases argument with
          | null | date _ | dateTime _ => exact content_self _
          | _ => exact .error trivial

theorem year_respects : RespectsContent year := fun _ same =>
  (expectCount_alike same 1 1 "1").bind fun _ _ _ => by
    have argument := get_content same 0
    generalize get _ 0 = value at argument ⊢
    generalize get _ 0 = value' at argument ⊢
    cases argument with
    | null | date _ | dateTime _ => exact content_self _
    | _ => exact .error trivial

/-! ## Texts -/

theorem isEmptyValue_eq {left right : Value} (same : left.SameContent right) :
    isEmptyValue left = isEmptyValue right := by
  cases same with
  | list items => cases items <;> rfl
  | map entries => cases entries <;> rfl
  | _ => rfl

theorem isEmpty_respects : RespectsContent isEmpty := fun _ same =>
  (expectCount_alike same 1 1 "1").bind fun _ _ _ => by
    rw [isEmptyValue_eq (get_content same 0)]
    exact content_self _

theorem join_eq {lefts rights : List Value} (same : Forall₂ SameContent lefts rights)
    (position : Nat) : join position lefts = join position rights := by
  induction same generalizing position with
  | nil => rfl
  | cons head _ ih =>
    cases head with
    -- Null is left out on both sides.
    | null => exact ih _
    | text characters => simp only [join, ih]
    | _ => rfl

theorem concat_respects : RespectsContent concat := fun _ same => by
  have joined {lefts rights : List Value} (parts : Forall₂ SameContent lefts rights) :
      Alike (fun _ => True) SameContent (do return Value.text (← join 0 lefts))
        (do return Value.text (← join 0 rights)) := by
    rw [join_eq parts]
    exact content_self _
  -- A single list is joined itself, anything else as the list of arguments.
  have arguments := same
  cases same with
  | nil => exact joined arguments
  | cons head rest =>
    cases rest with
    | cons second rest => cases head <;> exact joined arguments
    | nil =>
      cases head with
      | list items => exact joined (Value.sameItems_iff_forall₂.mp items)
      | _ => exact joined arguments

theorem onText_respects (apply : String → Value) : RespectsContent (onText apply) := fun _ same =>
  (expectCount_alike same 1 1 "1").bind fun _ _ _ =>
    (text?_alike same 0).bind fun text _ equal => by
      subst equal
      exact content_self _

/-- No built-in function tells arguments of one content apart. -/
theorem all_respect : ∀ entry ∈ Builtin.all, RespectsContent entry.2 := by
  simp only [Builtin.all, List.forall_mem_cons, List.not_mem_nil, false_imp_iff, implies_true,
    and_true]
  exact ⟨count_respects, sum_respects, average_respects, best_respects _, best_respects _,
    roundBy_respects _, roundBy_respects _, onNumber_respects Arithmetic.floor_eq_of_toRat_eq,
    onNumber_respects Arithmetic.ceil_eq_of_toRat_eq,
    onNumber_respects Arithmetic.abs_eq_of_toRat_eq,
    inNumberSet_respects, today_respects, now_respects, date_respects, dateTime_respects,
    plusDays_respects, year_respects, isEmpty_respects, concat_respects, onText_respects _,
    onText_respects _, onText_respects _, flat_respects⟩

end Builtin

end Rulebook

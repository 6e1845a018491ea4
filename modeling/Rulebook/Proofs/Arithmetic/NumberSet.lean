import Rulebook.Proofs.Arithmetic.Difference
import Rulebook.Proofs.Arithmetic.Remainder

/-!
# Membership in stepped number sets

The bounds decide first and never fail. Behind them a step divides the difference from the anchor;
the remainder is exact there, so that it vanishes exactly for the multiples of the step. The only
value that is rounded is the difference itself, and that only where it has more than sixteen digits.
-/
namespace Rulebook.NumberSet

open Decimal Arithmetic

/-- A bound of the set leaves the value out. -/
def Outside (set : NumberSet) (value : ℚ) : Prop :=
  (∃ bound ∈ set.lower, value < (normalize bound).toRat) ∨
    ∃ bound ∈ set.upper, (normalize bound).toRat < value

instance (set : NumberSet) (value : ℚ) : Decidable (set.Outside value) :=
  inferInstanceAs (Decidable (_ ∨ _))

variable {set : NumberSet} {value step difference : Decimal}

theorem isBelow_or_isAbove_iff :
    (set.isBelow value || set.isAbove value) = true ↔ set.Outside (normalize value).toRat := by
  rw [Bool.or_eq_true, isBelow, isAbove, Option.any_eq_true, Option.any_eq_true]
  simp only [beq_iff_eq, order_eq_compare, compare_lt_iff_lt, compare_gt_iff_gt]
  rfl

/-- The bounds decide before the step is looked at. -/
theorem contains_of_outside (outside : set.Outside (normalize value).toRat) :
    set.contains value = .ok false := by
  rw [contains, if_pos (isBelow_or_isAbove_iff.mpr outside)]

section Inside

variable (inside : ¬set.Outside (normalize value).toRat)

include inside

/-- Between the bounds every value is a member of a set without a step. -/
theorem contains_of_unstepped (unstepped : set.step = none) : set.contains value = .ok true := by
  rw [contains, if_neg (mt isBelow_or_isAbove_iff.mp inside), unstepped]

/-- Between the bounds the remainder of the difference by the step decides. -/
theorem contains_of_stepped (stepped : set.step = some step) :
    set.contains value = (subtract value set.anchor).bind fun difference =>
      (modulus difference step).map isZero := by
  rw [contains, if_neg (mt isBelow_or_isAbove_iff.mp inside), stepped]
  cases subtract value set.anchor with
  | error failure => rfl
  | ok difference =>
    change (modulus difference step).bind _ = (modulus difference step).map isZero
    cases modulus difference step <;> rfl

end Inside

/-- A remainder is found, and it vanishes exactly for the multiples of the divisor. -/
theorem exists_isZero_modulus (number : Decimal) (nonzero : (normalize step).toRat ≠ 0) :
    ∃ divides, (modulus number step).map isZero = .ok divides ∧
      (divides = true ↔
        ∃ count : ℤ, (normalize number).toRat = count * (normalize step).toRat) := by
  obtain ⟨rest, ok, value⟩ := exists_modulus number nonzero
  rw [ok]
  refine ⟨_, rfl, ?_⟩
  rw [isZero_normalize_iff, value, remainder_eq_zero_iff nonzero]

/-- Membership is decided on the difference from the anchor, which is exact as far as it has sixteen
digits: a value behind a bound is no member whatever the step, one between the bounds is a member if
there is no step, and otherwise exactly if the difference is a whole number of steps. -/
theorem membership_is_exact (set : NumberSet) (value : Decimal) :
    (set.Outside (normalize value).toRat → set.contains value = .ok false) ∧
    (¬set.Outside (normalize value).toRat → set.step = none → set.contains value = .ok true) ∧
    (∀ step, ¬set.Outside (normalize value).toRat → set.step = some step →
      (∀ failure, subtract value set.anchor = .error failure →
        failure = .overflow .subtract ∧ set.contains value = .error failure) ∧
      ∀ difference, subtract value set.anchor = .ok difference →
        (step.toRat = 0 → set.contains value = .error .divisionByZero) ∧
        (step.toRat ≠ 0 → ∃ isMember, set.contains value = .ok isMember ∧
          (isMember = true ↔
            ∃ count : ℤ, difference.toRat = count * (normalize step).toRat))) ∧
    ∀ difference, subtract value set.anchor = .ok difference →
      HasDigits 16 ((normalize value).toRat - (normalize set.anchor).toRat) →
      difference.toRat = (normalize value).toRat - (normalize set.anchor).toRat := by
  refine ⟨contains_of_outside, contains_of_unstepped, fun step inside stepped => ?_,
    fun _ => toRat_difference_eq⟩
  rw [contains_of_stepped inside stepped]
  refine ⟨fun failure failed => ?_, fun difference ok => ?_⟩
  · rw [failed]
    exact ⟨eq_overflow_of_settle failed, rfl⟩
  · rw [ok]
    change (_ → (modulus difference step).map isZero = _) ∧
      (_ → ∃ isMember, (modulus difference step).map isZero = _ ∧ _)
    constructor
    · intro zero
      -- A step of zero divides no difference.
      rw [modulus_of_zero difference (by rw [normalize_eq_zero zero, toRat_zero])]
      rfl
    · intro nonzero
      -- The difference is a normal form already, so it is not rounded again.
      have divides := exists_isZero_modulus difference (toRat_normalize_ne_zero nonzero)
      rwa [normalize_of_settle ok] at divides

/-- A few tenths. -/
def tenths (count : ℤ) (few : count.natAbs < 100 := by decide) : Decimal :=
  ofSigned false count 1 (by omega) (by decide)

/-- Negative steps down from an upper bound, a step of zero in and out of bounds, no step, and a
difference out of range before a step of zero. -/
theorem membership_is_exact_of_steps :
    let largest : Decimal := { mantissa := 79228162514264330000000000000, scale := 0 }
    let down : NumberSet := { upper := some (tenths 1), step := some (tenths (-3)) }
    let never : NumberSet := { lower := some (tenths 1), step := some .zero }
    let wide : NumberSet := { lower := some largest.negate, step := some .zero }
    ((tenths (-6)).toRat = (normalize (tenths (-5))).toRat - (normalize down.anchor).toRat ∧
      ∃ isMember, down.contains (tenths (-5)) = .ok isMember ∧ isMember = true) ∧
    never.contains (tenths 2) = .error .divisionByZero ∧ never.contains (tenths 0) = .ok false ∧
    ({ upper := some largest } : NumberSet).contains (tenths 1) = .ok true ∧
    wide.contains largest = .error (.overflow .subtract) := by
  intro largest down never wide
  refine ⟨?member, ?zero, ?outside, ?unstepped, ?overflow⟩
  case member =>
    have laws := membership_is_exact down (tenths (-5))
    have ok : subtract (tenths (-5)) down.anchor = .ok (tenths (-6)) := by decide +kernel
    have decided := (laws.2.2.1 _ (by decide +kernel) rfl).2 _ ok
    obtain ⟨isMember, contained, iff⟩ := decided.2 (by decide +kernel)
    -- The difference is two steps down, and exact.
    refine ⟨laws.2.2.2 _ ok ⟨-6, -1, by decide, by decide +kernel⟩, isMember, contained, ?_⟩
    exact iff.mpr ⟨2, by decide +kernel⟩
  case zero =>
    have ok : subtract (tenths 2) never.anchor = .ok (tenths 1) := by decide +kernel
    have decided := ((membership_is_exact never (tenths 2)).2.2.1 _ (by decide +kernel) rfl).2 _ ok
    exact decided.1 (by decide +kernel)
  case outside => exact (membership_is_exact never (tenths 0)).1 (by decide +kernel)
  case unstepped => exact (membership_is_exact _ (tenths 1)).2.1 (by decide +kernel) rfl
  case overflow =>
    have failed : subtract largest wide.anchor = .error (.overflow .subtract) := by decide +kernel
    exact (((membership_is_exact wide largest).2.2.1 _ (by decide +kernel) rfl).1 _ failed).2

end Rulebook.NumberSet

import Mathlib.Algebra.Order.Field.Power
import Mathlib.Algebra.Order.Ring.Rat
import Mathlib.Data.Rat.Cast.Order
import Mathlib.Tactic.FieldSimp
import Mathlib.Tactic.Linarith
import Mathlib.Tactic.NormNum
import Mathlib.Tactic.Positivity
import Mathlib.Tactic.Ring
import Rulebook.Decimal.Rounding

/-!
# Nearest integers

Rounding is stated on exact rationals: an integer nearest to the value, and of two such integers
the one that the tie rule names. The rounding of quotients finds this integer, and on any grid of
decimal places the same statement is made of the scaled value.
-/
namespace Rulebook

/-- What a tie rule asks of the integer chosen for a value half way between two. -/
def Tie.Chooses : Tie → ℚ → ℤ → Prop
  | .away, value, whole => |value| < |(whole : ℚ)|
  | .even, _, whole => Even whole

/-- The integer is nearest to the value, and named by the tie rule if two are. -/
structure IsNearest (tie : Tie) (value : ℚ) (whole : ℤ) : Prop where
  near : |value - whole| ≤ 1 / 2
  tied : |value - whole| = 1 / 2 → tie.Chooses value whole

namespace IsNearest

variable {tie : Tie} {value : ℚ} {whole : ℤ}

/-- Both tie rules treat signs alike. -/
theorem neg (nearest : IsNearest tie value whole) : IsNearest tie (-value) (-whole) := by
  have distance : |-value - ((-whole : ℤ) : ℚ)| = |value - whole| := by
    rw [← abs_neg]
    congr 1
    push_cast
    ring
  refine ⟨distance ▸ nearest.near, fun tied => ?_⟩
  have chosen := nearest.tied (distance ▸ tied)
  cases tie with
  | away => simpa [Tie.Chooses] using chosen
  | even => exact chosen.neg

theorem of_near (near : |value - whole| < 1 / 2) : IsNearest tie value whole :=
  ⟨near.le, fun tied => absurd tied near.ne⟩

theorem intCast (whole : ℤ) : IsNearest tie whole whole :=
  of_near (by norm_num)

end IsNearest

/-! ### Quotients -/

/-- A value between a count and the next one is rounded by the part beyond the count. -/
theorem isNearest_down {tie : Tie} {count : ℕ} {part : ℚ} (positive : 0 ≤ part)
    (small : part ≤ 1 / 2) (kept : part = 1 / 2 → tie = .even ∧ Even count) :
    IsNearest tie (count + part) count := by
  have distance : |(count + part : ℚ) - (count : ℤ)| = part := by
    push_cast
    rw [add_sub_cancel_left, abs_of_nonneg positive]
  refine ⟨by rwa [distance], fun tied => ?_⟩
  rw [distance] at tied
  obtain ⟨rfl, even⟩ := kept tied
  exact (Int.even_coe_nat count).mpr even

/-- From one half on it is rounded to the next count. -/
theorem isNearest_up {tie : Tie} {count : ℕ} {part : ℚ} (large : 1 / 2 ≤ part) (below : part < 1)
    (kept : part = 1 / 2 → tie = .away ∨ Even (count + 1)) :
    IsNearest tie (count + part) (count + 1 : ℕ) := by
  have distance : |(count + part : ℚ) - ((count + 1 : ℕ) : ℤ)| = 1 - part := by
    push_cast
    rw [abs_of_neg (by linarith)]
    ring
  refine ⟨by rw [distance]; linarith, fun tied => ?_⟩
  rw [distance] at tied
  -- A part of one half is a tie, and then the rule has chosen the next count.
  have even := kept (by linarith)
  have counted : (0 : ℚ) ≤ count := Nat.cast_nonneg count
  cases tie with
  | away =>
    -- Away from zero is upward for a count.
    rw [Tie.Chooses, abs_of_nonneg (by linarith)]
    push_cast
    rw [abs_of_nonneg (by linarith)]
    linarith
  | even => exact (Int.even_coe_nat _).mpr (even.resolve_left (by decide))

section Halves

variable {part whole : ℕ}

theorem div_le_half_iff (positive : 0 < whole) :
    (part : ℚ) / whole ≤ 1 / 2 ↔ 2 * part ≤ whole := by
  rw [div_le_div_iff₀ (by exact_mod_cast positive) two_pos, one_mul, mul_comm]
  exact_mod_cast Iff.rfl

theorem half_le_div_iff (positive : 0 < whole) :
    1 / 2 ≤ (part : ℚ) / whole ↔ whole ≤ 2 * part := by
  rw [div_le_div_iff₀ two_pos (by exact_mod_cast positive), one_mul, mul_comm]
  exact_mod_cast Iff.rfl

theorem two_mul_eq_of_div_eq_half (positive : 0 < whole) (half : (part : ℚ) / whole = 1 / 2) :
    2 * part = whole :=
  Nat.le_antisymm ((div_le_half_iff positive).mp half.le) ((half_le_div_iff positive).mp half.ge)

end Halves

/-- The quotient is rounded by its remainder. -/
theorem roundQuotient_isNearest (tie : Tie) (numerator : ℕ) {denominator : ℕ}
    (positive : 0 < denominator) :
    IsNearest tie ((numerator : ℚ) / denominator) (roundQuotient tie numerator denominator) := by
  have divisor : (0 : ℚ) < denominator := by exact_mod_cast positive
  have split : (numerator : ℚ) / denominator =
      (numerator / denominator : ℕ) + (numerator % denominator : ℕ) / denominator := by
    have parts : (denominator : ℚ) * (numerator / denominator : ℕ) +
        (numerator % denominator : ℕ) = numerator := by
      exact_mod_cast Nat.div_add_mod numerator denominator
    field_simp
    linarith
  -- The remainder makes the part of the next count.
  have fraction : ((numerator % denominator : ℕ) : ℚ) / denominator < 1 := by
    rw [div_lt_one divisor]
    exact_mod_cast Nat.mod_lt numerator positive
  have tied (half : ((numerator % denominator : ℕ) : ℚ) / denominator = 1 / 2) :
      2 * (numerator % denominator) = denominator := two_mul_eq_of_div_eq_half positive half
  rw [split]
  unfold roundQuotient
  dsimp only
  split
  next below =>
    exact isNearest_down (by positivity) ((div_le_half_iff positive).mpr below.le) fun half =>
      absurd (tied half) below.ne
  next notBelow =>
    have large := (half_le_div_iff positive).mpr (Nat.le_of_not_lt notBelow)
    split
    next above => exact isNearest_up large fraction fun half => absurd (tied half) above.ne'
    next notAbove =>
      have small := (div_le_half_iff positive).mpr (Nat.le_of_not_lt notAbove)
      cases tie with
      | away => exact isNearest_up large fraction fun _ => .inl rfl
      | even =>
        dsimp only
        split
        next even =>
          exact isNearest_down (by positivity) small fun _ => ⟨rfl, Nat.even_iff.mpr even⟩
        next odd =>
          exact isNearest_up large fraction fun _ => .inr (Nat.even_iff.mpr (by omega))

theorem roundRatio_isNearest (tie : Tie) (numerator : ℤ) {denominator : ℕ}
    (positive : 0 < denominator) :
    IsNearest tie ((numerator : ℚ) / denominator) (roundRatio tie numerator denominator) := by
  have magnitude := roundQuotient_isNearest tie numerator.natAbs positive
  rw [Nat.cast_natAbs] at magnitude
  rw [roundRatio]
  -- The sign is put before the rounded magnitude, as the rounding does it.
  rcases lt_trichotomy numerator 0 with negative | rfl | above
  · rw [abs_of_neg negative] at magnitude
    rw [Int.sign_eq_neg_one_of_neg negative, neg_one_mul]
    simpa [neg_div] using magnitude.neg
  · simpa using IsNearest.intCast 0
  · rw [abs_of_pos above] at magnitude
    rw [Int.sign_eq_one_of_pos above, one_mul]
    exact magnitude

/-! ### Bounds -/

namespace IsNearest

variable {tie : Tie} {value : ℚ} {whole : ℤ}

/-- Rounding adds one half to the magnitude at most. -/
theorem abs_whole_le (nearest : IsNearest tie value whole) : |(whole : ℚ)| ≤ |value| + 1 / 2 := by
  have apart := abs_sub_abs_le_abs_sub (whole : ℚ) value
  rw [abs_sub_comm] at apart
  linarith [nearest.near]

theorem abs_value_le (nearest : IsNearest tie value whole) : |value| ≤ |(whole : ℚ)| + 1 / 2 := by
  linarith [abs_sub_abs_le_abs_sub value (whole : ℚ), nearest.near]

/-- No other integer is nearer. -/
theorem abs_sub_whole_le (nearest : IsNearest tie value whole) (other : ℤ) :
    |value - whole| ≤ |value - other| := by
  rcases eq_or_ne other whole with rfl | different
  · exact le_rfl
  · have apart : (1 : ℚ) ≤ |(other : ℚ) - whole| := by
      exact_mod_cast Int.one_le_abs (sub_ne_zero.mpr different)
    have path := abs_sub_le (other : ℚ) value whole
    rw [abs_sub_comm (other : ℚ) value] at path
    linarith [nearest.near]

/-- A tie has one rounding, so greater values are not rounded to less. -/
theorem le {value' : ℚ} {whole' : ℤ} (nearest : IsNearest tie value whole)
    (nearest' : IsNearest tie value' whole') (below : value ≤ value') : whole ≤ whole' := by
  by_contra! crossed
  have crossed : whole' + 1 ≤ whole := crossed
  have gap : (whole' : ℚ) + 1 ≤ whole := by exact_mod_cast crossed
  have high := (abs_le.mp nearest.near).1
  have low := (abs_le.mp nearest'.near).2
  -- Both values are the one half way between neighbouring integers.
  have down : value - whole = -(1 / 2) := by linarith
  have up : value' - whole' = 1 / 2 := by linarith
  have next : (whole' : ℚ) + 1 = whole := by linarith
  have next : whole' + 1 = whole := by exact_mod_cast next
  have chosen := nearest.tied (by rw [down]; norm_num)
  have chosen' := nearest'.tied (by rw [up]; norm_num)
  cases tie with
  | away =>
    simp only [Tie.Chooses] at chosen chosen'
    rcases le_or_gt whole 0 with negative | positive
    · have negative : (whole : ℚ) ≤ 0 := by exact_mod_cast negative
      rw [abs_of_nonpos negative, abs_of_nonpos (by linarith)] at chosen
      linarith
    · have positive : (0 : ℚ) ≤ whole' := by exact_mod_cast (by omega : 0 ≤ whole')
      rw [abs_of_nonneg positive, abs_of_nonneg (by linarith)] at chosen'
      linarith
  | even =>
    simp only [Tie.Chooses] at chosen chosen'
    -- Of two neighbours one is odd.
    rw [← next, Int.even_add_one] at chosen
    exact chosen chosen'

/-- Rounding does not carry a value across an integer. -/
theorem whole_le (nearest : IsNearest tie value whole) (bound : ℤ) (below : value ≤ bound) :
    whole ≤ bound :=
  nearest.le (.intCast bound) below

/-- A value reaches an even bound by rounding exactly if it lacks no more than one half. -/
theorem le_abs_iff (nearest : IsNearest .even value whole) {bound : ℤ} (even : Even bound) :
    bound ≤ |whole| ↔ (bound : ℚ) ≤ |value| + 1 / 2 := by
  constructor
  · intro reached
    have reached : (bound : ℚ) ≤ |(whole : ℚ)| := by exact_mod_cast reached
    exact reached.trans nearest.abs_whole_le
  · intro close
    by_contra short
    have short : |whole| ≤ bound - 1 := by omega
    have short' : |(whole : ℚ)| ≤ bound - 1 := by exact_mod_cast short
    have apart := abs_sub_abs_le_abs_sub value (whole : ℚ)
    -- The distance leaves no room: the integer is the odd one below the bound.
    have tied : |value - whole| = 1 / 2 := le_antisymm nearest.near (by linarith)
    have reached : (bound : ℚ) - 1 ≤ |(whole : ℚ)| := by linarith
    have reached : bound - 1 ≤ |whole| := by exact_mod_cast reached
    have odd : |whole| = bound - 1 := le_antisymm short reached
    have chosen : Even whole := nearest.tied tied
    rw [← even_abs, odd, Int.even_sub_one] at chosen
    exact chosen even

end IsNearest

end Rulebook

import Rulebook.Decimal.Basic

/-!
# Rounding

Every rounding is the nearest neighbour on a grid of equal steps; a tie goes away from zero or to
the even multiple. Signs are handled in one place: the magnitude is rounded and the sign put back.
A negative number that is rounded to zero keeps its sign, so -0.4 becomes -0.
`nearest?` is the one rounding from exact rationals into the decimals: it keeps as many places as
the mantissa has room for.
-/
namespace Rulebook

/-- Where a value exactly half way between two neighbours goes. -/
inductive Tie where
  | away
  | even
deriving DecidableEq, Repr

/-- The multiple of one unit nearest to `numerator / denominator`. -/
def roundQuotient (tie : Tie) (numerator denominator : Nat) : Nat :=
  let quotient := numerator / denominator
  let remainder := numerator % denominator
  if 2 * remainder < denominator then quotient
  else if denominator < 2 * remainder then quotient + 1
  else match tie with
    | .away => quotient + 1
    | .even => if quotient % 2 = 0 then quotient else quotient + 1

/-- Rounds a signed quotient by its magnitude. -/
def roundRatio (tie : Tie) (numerator : Int) (denominator : Nat) : Int :=
  numerator.sign * roundQuotient tie numerator.natAbs denominator

theorem roundQuotient_le_succ (tie : Tie) (numerator denominator : Nat) :
    roundQuotient tie numerator denominator ≤ numerator / denominator + 1 := by
  simp only [roundQuotient]
  split
  · omega
  · split
    · omega
    · cases tie <;> simp only
      · omega
      · split <;> omega

theorem roundQuotient_zero (tie : Tie) (denominator : Nat) (positive : 0 < denominator) :
    roundQuotient tie 0 denominator = 0 := by
  simp [roundQuotient, positive]

/-- On a grid of at least two, rounding never enlarges a whole number. -/
theorem roundQuotient_le (tie : Tie) (numerator denominator : Nat) (coarse : 2 ≤ denominator) :
    roundQuotient tie numerator denominator ≤ numerator := by
  by_cases empty : numerator = 0
  · simp [empty, roundQuotient_zero tie denominator (by omega)]
  · have bound := roundQuotient_le_succ tie numerator denominator
    -- Rounding upward by one makes up for no more than the division has taken.
    have smaller : numerator / denominator < numerator := Nat.div_lt_self (by omega) coarse
    omega

/-- The sign does not matter to that. -/
theorem roundRatio_natAbs_le (tie : Tie) (numerator : Int) (denominator : Nat)
    (coarse : 2 ≤ denominator) :
    (roundRatio tie numerator denominator).natAbs ≤ numerator.natAbs := by
  have bound := roundQuotient_le tie numerator.natAbs denominator coarse
  rw [roundRatio, Int.natAbs_mul, Int.natAbs_natCast]
  rcases Int.lt_trichotomy numerator 0 with negative | empty | positive
  · simpa [Int.sign_eq_neg_one_of_neg negative] using bound
  · simp [empty]
  · simpa [Int.sign_eq_one_of_pos positive] using bound

namespace Decimal

/-- The nearest decimal with at most `places` fractional digits; a number that already has no more
is kept as it is written. -/
def roundTo (tie : Tie) (places : Nat) (number : Decimal) : Decimal :=
  if finer : places < number.scale then
    -- A negative number that is rounded to zero keeps its sign here.
    ofSigned number.isSignNegative
      (roundRatio tie number.mantissa (powerOfTen (number.scale - places))) places (by
        have step : 2 ≤ powerOfTen (number.scale - places) :=
          Nat.le_trans (by decide) (ten_le_powerOfTen (by omega))
        exact Nat.lt_of_le_of_lt (roundRatio_natAbs_le _ _ _ step) number.mantissa_lt)
      (Nat.le_trans (Nat.le_of_lt finer) number.scale_le)
  else number

/-- Rounds a rational at the most places, from `places` downward, at which the mantissa fits. -/
def nearestWithin? (numerator : Int) (denominator : Nat) : Nat → Option Decimal
  | 0 => ofParts? (roundRatio .even numerator denominator) 0
  | places + 1 =>
    match ofParts? (roundRatio .even (numerator * powerOfTen (places + 1)) denominator)
        (places + 1) with
    | some number => some number
    -- One place less needs a smaller mantissa.
    | none => nearestWithin? numerator denominator places

/-- The decimal nearest to `numerator / denominator`, ties to even, at the most places that leave
the mantissa within 96 bits; none when not even the whole part fits. -/
def nearest? (numerator : Int) (denominator : Nat) : Option Decimal :=
  nearestWithin? numerator denominator 28

/-- The greatest integer not above the number; of a negative zero, that zero. -/
def floor (number : Decimal) : Decimal :=
  ofSigned number.isSignNegative (number.mantissa / powerOfTen number.scale) 0
    (Nat.lt_of_le_of_lt (Int.natAbs_ediv_le_natAbs _ _) number.mantissa_lt) no_places_le

/-- The least integer not below the number; between -1 and 0 it is a negative zero. -/
def ceil (number : Decimal) : Decimal :=
  ofSigned number.isSignNegative (-(-number.mantissa / powerOfTen number.scale)) 0 (by
    have bound := Int.natAbs_ediv_le_natAbs (-number.mantissa) (powerOfTen number.scale)
    rw [Int.natAbs_neg] at bound ⊢
    exact Nat.lt_of_le_of_lt bound number.mantissa_lt) no_places_le

end Decimal

end Rulebook

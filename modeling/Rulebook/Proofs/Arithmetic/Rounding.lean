import Rulebook.Proofs.Arithmetic.Precision
import Rulebook.Proofs.Decimal.Literal

/-!
# Rounding twice

A result is rounded into the decimals first and to sixteen digits then. Rounding once could only
differ where the first rounding has moved the value onto the middle between two multiples of the
last place. Apart from that the kernel rounds the exact value half to even, and so it does with
plain literals, whose own ties at 28 places go away from zero.
-/
namespace Rulebook

open Decimal

/-- The exponent of the last of sixteen digits, or of the 28th place where that is coarser. -/
structure IsLastPlace (value : ℚ) (exponent : ℤ) : Prop where
  places : -28 ≤ exponent
  digits : |value| < 10 ^ (exponent + 16)
  least : exponent = -28 ∨ 10 ^ (exponent + 15) ≤ |value|

/-- The result is the value rounded a single time, half to even, at its own last place. -/
def RoundsOnce (value result : ℚ) : Prop :=
  ∃ exponent, IsLastPlace value exponent ∧ RoundsTo exponent value result

/-- The value lies half way between two multiples of a power of ten. -/
def IsHalfway (exponent : ℤ) (value : ℚ) : Prop :=
  ∃ whole : ℤ, value = (whole + 1 / 2) * 10 ^ exponent

theorem exists_isLastPlace {value : ℚ} {exponent : ℤ} (places : -28 ≤ exponent)
    (digits : |value| < 10 ^ (exponent + 16)) : ∃ last ≤ exponent, IsLastPlace value last := by
  obtain ⟨above, rfl⟩ : ∃ above : ℕ, exponent = above - 28 := ⟨(exponent + 28).toNat, by omega⟩
  -- Downward by induction, until the digits fill the place or no lower place is left.
  induction above with
  | zero => exact ⟨_, le_rfl, places, digits, .inl (by simp)⟩
  | succ above ih =>
    rcases lt_or_ge |value| (10 ^ ((above + 1 : ℕ) - 28 + 15 : ℤ)) with fewer | least
    · have place : ((above + 1 : ℕ) : ℤ) - 28 + 15 = above - 28 + 16 := by omega
      obtain ⟨last, below, isLast⟩ := ih (by omega) (place ▸ fewer)
      exact ⟨last, by omega, isLast⟩
    · exact ⟨_, le_rfl, places, digits, .inr least⟩

theorem IsLastPlace.unique {value : ℚ} {exponent other : ℤ} (isLast : IsLastPlace value exponent)
    (isOther : IsLastPlace value other) : exponent = other := by
  have le {finer coarser : ℤ} (fine : IsLastPlace value finer)
      (coarse : IsLastPlace value coarser) : coarser ≤ finer := by
    rcases coarse.least with last | least
    · exact last ▸ fine.places
    · have powers := least.trans_lt fine.digits
      rw [zpow_lt_zpow_iff_right₀ (by norm_num)] at powers
      omega
  exact le_antisymm (le isOther isLast) (le isLast isOther)

section Multiples

variable {exponent : ℤ} {value result : ℚ} {whole : ℤ}

theorem RoundsTo.abs_sub_le (rounds : RoundsTo exponent value result) :
    |value - result| ≤ 1 / 2 * 10 ^ exponent := by
  obtain ⟨whole, nearest, rfl⟩ := rounds
  have step : (0 : ℚ) < 10 ^ exponent := zpow_pos (by norm_num) _
  rw [← div_le_iff₀ step, ← abs_of_pos step, ← abs_div, abs_of_pos step, sub_div,
    mul_div_cancel_right₀ _ step.ne']
  exact nearest.near

/-- A value too far from a result was not rounded to it at once. -/
theorem not_roundsOnce_of_far (last : IsLastPlace value exponent)
    (far : 1 / 2 * 10 ^ exponent < |value - result|) : ¬RoundsOnce value result := by
  rintro ⟨other, isLast, rounds⟩
  rw [isLast.unique last] at rounds
  exact rounds.abs_sub_le.not_gt far

theorem isHalfway_of_tied (tied : |value / 10 ^ exponent - whole| = 1 / 2) :
    IsHalfway exponent value := by
  have step : (10 : ℚ) ^ exponent ≠ 0 := zpow_ne_zero _ (by norm_num)
  rcases (abs_eq (by norm_num)).mp tied with above | below
  · refine ⟨whole, ?_⟩
    rw [← div_eq_iff step]
    linarith
  · refine ⟨whole - 1, ?_⟩
    rw [← div_eq_iff step]
    push_cast
    linarith

/-- A multiple of a power of ten is a multiple of every lower one. -/
theorem exists_multiple_of_le {finer : ℤ} (le : finer ≤ exponent) (whole : ℤ) :
    ∃ more : ℤ, (whole : ℚ) * 10 ^ exponent = more * 10 ^ finer := by
  obtain ⟨zeros, rfl⟩ : ∃ zeros : ℕ, exponent = zeros + finer :=
    ⟨(exponent - finer).toNat, by omega⟩
  refine ⟨whole * 10 ^ zeros, ?_⟩
  rw [zpow_add₀ (by norm_num), zpow_natCast]
  push_cast
  ring

/-- It stays what it is when it is rounded there. -/
theorem roundsTo_multiple {finer : ℤ} (le : finer ≤ exponent) (whole : ℤ) :
    RoundsTo finer (whole * 10 ^ exponent) (whole * 10 ^ exponent) := by
  have step : (10 : ℚ) ^ finer ≠ 0 := zpow_ne_zero _ (by norm_num)
  obtain ⟨more, multiple⟩ := exists_multiple_of_le le whole
  rw [multiple]
  refine ⟨more, ?_, rfl⟩
  rw [mul_div_cancel_right₀ _ step]
  exact .intCast _

theorem RoundsTo.eq_of_multiple (rounds : RoundsTo exponent (whole * 10 ^ exponent) result) :
    result = whole * 10 ^ exponent := by
  obtain ⟨other, nearest, rfl⟩ := rounds
  have step : (10 : ℚ) ^ exponent ≠ 0 := zpow_ne_zero _ (by norm_num)
  have near := nearest.near
  rw [mul_div_cancel_right₀ _ step] at near
  have apart : |(whole - other : ℤ)| < (1 : ℤ) := by
    have apart : |((whole - other : ℤ) : ℚ)| < (1 : ℤ) := by
      push_cast
      linarith
    exact_mod_cast apart
  rw [sub_eq_zero.mp (Int.abs_lt_one_iff.mp apart)]

end Multiples

/-! ### From the first rounding to the second -/

/-- Half a unit cannot carry a value across the middle of an even number of units, except from the
middle itself. -/
theorem untied_of_near {scaled : ℚ} {mantissa whole : ℤ} {half : ℕ} (positive : 0 < half)
    (near : |scaled - mantissa| ≤ 1 / 2) (untied : |mantissa / (2 * half : ℚ) - whole| < 1 / 2) :
    |scaled / (2 * half : ℚ) - whole| < 1 / 2 := by
  have units : (0 : ℚ) < 2 * half := by positivity
  have distance (value : ℚ) : |value / (2 * half : ℚ) - whole| < 1 / 2 ↔
      |value - whole * (2 * half)| < half := by
    rw [← mul_lt_mul_iff_left₀ units, ← abs_of_pos units, ← abs_mul, abs_of_pos units, sub_mul,
      div_mul_cancel₀ _ units.ne', one_div, inv_mul_cancel_left₀ two_ne_zero]
  rw [distance] at untied ⊢
  -- The middle is itself a whole number of units, so the mantissa keeps one whole unit from it.
  have apart : |mantissa - whole * (2 * half)| < (half : ℤ) := by exact_mod_cast untied
  have apart : |mantissa - whole * (2 * half)| ≤ (half : ℤ) - 1 := by omega
  have apart : |(mantissa : ℚ) - whole * (2 * half)| ≤ half - 1 := by exact_mod_cast apart
  calc |scaled - whole * (2 * half)|
      ≤ |scaled - mantissa| + |(mantissa : ℚ) - whole * (2 * half)| := abs_sub_le _ _ _
    _ < half := by linarith

/-- A value is rounded into the decimals and from there to its last place. The result is the value
rounded once, unless the first rounding has moved it half way between two multiples of its last
place, or the value itself lies half way between two units of the 28th place and the tie rule of the
first rounding is not the one of the second. -/
structure RoundsTwice (tie : Tie) (precise : ℚ) (first : Decimal) (exponent : ℤ) (result : ℚ) :
    Prop where
  represents : Represents tie precise first
  last : IsLastPlace precise exponent
  again : RoundsTo exponent first.toRat result
  once : RoundsTo exponent precise result ∨
    first.toRat ≠ precise ∧ IsHalfway exponent first.toRat ∨
    tie = .away ∧ exponent = -28 ∧ IsHalfway exponent precise

namespace Decimal

theorem zpow_place (digits places more : ℕ) :
    (10 : ℚ) ^ ((digits : ℤ) - places + more) = 10 ^ (digits + more) / 10 ^ places := by
  rw [sub_add_eq_add_sub, zpow_sub₀ (by norm_num), ← Nat.cast_add, zpow_natCast, zpow_natCast]

theorem lt_zpow_of_scaled {precise : ℚ} {places digits : ℕ}
    (fits : |precise| * 10 ^ places < 10 ^ (digits + 16)) :
    |precise| < 10 ^ ((digits : ℤ) - places + 16) := by
  rw [← lt_div_iff₀ (by positivity)] at fits
  exact fits.trans_eq (zpow_place digits places 16).symm

theorem isLastPlace_of_scaled {precise : ℚ} {places digits : ℕ} (within : places ≤ 28)
    (least : 10 ^ (digits + 15) ≤ |precise| * 10 ^ places)
    (fits : |precise| * 10 ^ places < 10 ^ (digits + 16)) :
    IsLastPlace precise (digits - places) := by
  refine ⟨by omega, lt_zpow_of_scaled fits, .inr ?_⟩
  rw [← div_le_iff₀ (by positivity)] at least
  exact (zpow_place digits places 15).trans_le least

theorem toRat_eq_mul_zpow {number : Decimal} {coefficient : ℤ} {digits : ℕ}
    (mantissa : number.mantissa = coefficient * 10 ^ digits) :
    number.toRat = coefficient * 10 ^ ((digits : ℤ) - number.scale) := by
  rw [toRat_eq_div, mantissa, zpow_sub₀ (by norm_num), zpow_natCast, zpow_natCast]
  push_cast
  ring

/-- Where only zeros are rounded away, the value stays. -/
theorem toRat_normalize_of_zeros {number : Decimal} {coefficient : ℤ}
    (below : |number.toRat| < digitLimit)
    (zeros : number.mantissa = coefficient * 10 ^ number.excess) :
    (normalize number).toRat = number.toRat := by
  have rounds := normalize_roundsTo below
  have value := toRat_eq_mul_zpow zeros
  rw [value, lastPlace] at rounds
  rw [rounds.eq_of_multiple, value]

namespace Represents

variable {tie : Tie} {precise : ℚ} {number : Decimal}

theorem abs_scaled_le (represents : Represents tie precise number) :
    |precise| * 10 ^ number.scale ≤ |(number.mantissa : ℚ)| + 1 / 2 := by
  have close := represents.nearest.abs_value_le
  rwa [abs_mul, abs_pow, Nat.abs_ofNat] at close

theorem abs_mantissa_le (represents : Represents tie precise number) :
    |(number.mantissa : ℚ)| ≤ |precise| * 10 ^ number.scale + 1 / 2 := by
  have close := represents.nearest.abs_whole_le
  rwa [abs_mul, abs_pow, Nat.abs_ofNat] at close

/-- A mantissa is a whole number, so half a unit gives the exact value no further digit. -/
theorem scaled_lt (represents : Represents tie precise number) :
    |precise| * 10 ^ number.scale < 10 ^ (16 + number.excess) := by
  linarith [represents.abs_scaled_le, number.abs_mantissa_le_pow_sub_one]

/-- The usual case: the exact value has its last place where its decimal has it. -/
theorem roundsTwice_within (represents : Represents tie precise number)
    (below : |number.toRat| < digitLimit) (excess : number.excess ≠ 0)
    (least : 10 ^ (15 + number.excess) ≤ |precise| * 10 ^ number.scale) :
    RoundsTwice tie precise number number.lastPlace (normalize number).toRat := by
  have fits := represents.scaled_lt
  rw [Nat.add_comm] at least fits
  refine ⟨represents, isLastPlace_of_scaled number.scale_le least fits,
    normalize_roundsTo below, ?_⟩
  have nearest := number.kept_isNearest
  -- From the middle itself the value may have come from either side, unless nothing was rounded.
  by_cases tied : |number.toRat / 10 ^ number.lastPlace - number.kept| = 1 / 2
  · by_cases same : number.toRat = precise
    · exact .inl (same ▸ normalize_roundsTo below)
    · exact .inr (.inl ⟨same, isHalfway_of_tied tied⟩)
  · have untied := lt_of_le_of_ne nearest.near tied
    obtain ⟨fewer, more⟩ := Nat.exists_eq_succ_of_ne_zero excess
    have even : (10 : ℚ) ^ number.excess = 2 * (5 * 10 ^ fewer : ℕ) := by
      rw [more, pow_succ]
      push_cast
      ring
    refine .inl ⟨number.kept, .of_near ?_, toRat_normalize_of_lt below⟩
    rw [toRat_div_lastPlace, even] at untied
    rw [lastPlace, div_place, even]
    exact untied_of_near (by positivity) represents.nearest.near untied

/-- Where the exact value has fewer digits than its mantissa, that is the least one with as many. -/
theorem abs_mantissa_eq (represents : Represents tie precise number) (excess : number.excess ≠ 0)
    (fits : |precise| * 10 ^ number.scale < 10 ^ (15 + number.excess)) :
    |number.mantissa| = 10 ^ (15 + number.excess) := by
  have least := number.pow_le_abs_mantissa excess
  have most : |(number.mantissa : ℚ)| < 10 ^ (15 + number.excess) + 1 := by
    linarith [represents.abs_mantissa_le]
  have most : |number.mantissa| < 10 ^ (15 + number.excess) + 1 := by exact_mod_cast most
  omega

/-- A nearest mantissa that is an even multiple of a unit is the nearest multiple of this unit. -/
theorem isNearest_coarser {scaled : ℚ} {mantissa whole : ℤ} {zeros : ℕ}
    (nearest : IsNearest tie scaled mantissa) (multiple : mantissa = whole * 10 ^ zeros)
    (even : Even whole) : IsNearest .even (scaled / 10 ^ zeros) whole := by
  have unit : (1 : ℚ) ≤ 10 ^ zeros := one_le_pow₀ (by norm_num)
  have distance : scaled / 10 ^ zeros - whole = (scaled - mantissa) / 10 ^ zeros := by
    rw [multiple, sub_div]
    push_cast
    rw [mul_div_cancel_right₀ _ (by positivity)]
  refine ⟨?_, fun _ => even⟩
  rw [distance, abs_div, abs_pow, Nat.abs_ofNat]
  exact (div_le_self (abs_nonneg _) unit).trans nearest.near

/-- At the lower end of a range the last place of the exact value is one below that of its decimal,
which is a power of ten there and not rounded again. -/
theorem roundsTwice_boundary (represents : Represents tie precise number)
    (below : |number.toRat| < digitLimit) (excess : number.excess ≠ 0)
    (fits : |precise| * 10 ^ number.scale < 10 ^ (15 + number.excess)) :
    ∃ exponent, RoundsTwice tie precise number exponent (normalize number).toRat := by
  obtain ⟨fewer, more⟩ := Nat.exists_eq_succ_of_ne_zero excess
  have size := represents.abs_mantissa_eq excess fits
  -- A power of ten is a multiple at the last place of the mantissa and at the one below.
  have power (front zeros : ℕ) (all : front + zeros = 15 + number.excess) :
      number.mantissa = number.mantissa.sign * 10 ^ front * 10 ^ zeros := by
    rw [mul_assoc, ← pow_add, all, ← size, Int.sign_mul_abs]
  have digits := power 16 fewer (by omega)
  have value := toRat_eq_mul_zpow digits
  rw [toRat_normalize_of_zeros below (power 15 number.excess rfl)]
  refine ⟨fewer - number.scale, represents, isLastPlace_of_scaled number.scale_le ?least ?fits,
    value ▸ roundsTo_multiple le_rfl _, .inl ⟨_, ?once, value⟩⟩
  case least =>
    have top : |(number.mantissa : ℚ)| = 10 ^ (fewer + 15) * 10 := by
      rw [← pow_succ, show fewer + 15 + 1 = 15 + number.excess by omega]
      exact_mod_cast size
    have large : (1 : ℚ) ≤ 10 ^ (fewer + 15) := one_le_pow₀ (by norm_num)
    linarith [represents.abs_mantissa_le]
  case fits => rwa [show fewer + 16 = 15 + number.excess by omega]
  case once =>
    rw [div_place]
    exact isNearest_coarser represents.nearest digits
      ((by decide : Even ((10 : ℤ) ^ 16)).mul_left _)

/-- A number of at most sixteen digits is not rounded again. It is the exact value, or has no room
for a further place. -/
theorem roundsTwice_short (represents : Represents tie precise number)
    (below : |number.toRat| < digitLimit) (short : number.excess = 0) :
    ∃ exponent, RoundsTwice tie precise number exponent (normalize number).toRat := by
  have zeros : number.mantissa = number.mantissa * 10 ^ number.excess := by
    rw [short, pow_zero, mul_one]
  have value := toRat_eq_mul_zpow zeros
  have few := represents.scaled_lt
  rw [toRat_normalize_of_zeros below zeros]
  rw [short, Nat.add_comm] at few
  rw [short] at value
  have fits := lt_zpow_of_scaled few
  -- Sixteen digits leave room for another place, so only the first two cases are possible.
  rcases represents.finest with same | filled | unfit
  · have places := number.scale_le
    obtain ⟨last, le, isLast⟩ := exists_isLastPlace (by omega) fits
    have again := value ▸ roundsTo_multiple le number.mantissa
    exact ⟨last, represents, isLast, again, .inl (same ▸ again)⟩
  · have last : ((0 : ℕ) : ℤ) - number.scale = -28 := by omega
    have nearest := represents.nearest
    rw [← div_one (precise * 10 ^ number.scale), ← pow_zero (10 : ℚ), ← div_place, last] at nearest
    rw [last] at fits value
    refine ⟨-28, represents, ⟨le_rfl, fits, .inl rfl⟩, value ▸ roundsTo_multiple le_rfl _, ?_⟩
    -- The tie rules differ only where the exact value lies half way between two such numbers.
    cases tie with
    | even => exact .inl ⟨_, nearest, value⟩
    | away =>
      by_cases tied : |precise / 10 ^ (-28 : ℤ) - number.mantissa| = 1 / 2
      · exact .inr (.inr ⟨rfl, rfl, isHalfway_of_tied tied⟩)
      · exact .inl ⟨_, .of_near (lt_of_le_of_ne nearest.near tied), value⟩
  · rw [Nat.zero_add] at few
    rw [pow_succ (10 : ℚ) number.scale, ← mul_assoc] at unfit
    linarith

/-- Whatever represents a value below the limit and is normalized has been rounded twice. -/
theorem roundsTwice (represents : Represents tie precise number)
    (below : |number.toRat| < digitLimit) :
    ∃ exponent, RoundsTwice tie precise number exponent (normalize number).toRat := by
  by_cases short : number.excess = 0
  · exact represents.roundsTwice_short below short
  · rcases le_or_gt (10 ^ (15 + number.excess)) (|precise| * 10 ^ number.scale) with least | fits
    · exact ⟨_, represents.roundsTwice_within below short least⟩
    · exact represents.roundsTwice_boundary below short fits

end Represents

end Decimal

namespace Arithmetic

/-- Results of sixteen digits are exact values rounded twice: those of operations with ties to even
both times, those of plain literals with ties away from zero first. -/
theorem results_are_rounded_twice :
    (∀ (operation : Operation) (powers : PowerLibrary) (left right result : Decimal) (precise : ℚ),
      operation.value? (normalize left).toRat (normalize right).toRat = some precise →
      operation.apply powers left right = .ok result → HasDigits 16 result.toRat →
      ∃ first exponent, RoundsTwice .even precise first exponent result.toRat) ∧
    ∀ (literal : String) (result : Decimal),
      (trimChars literal.toList).any isExponentMark = false →
      parse literal = .ok result → HasDigits 16 result.toRat →
      ∃ first exponent,
        RoundsTwice .away (plainValue (trimChars literal.toList)) first exponent result.toRat := by
  constructor
  · intro operation powers left right result precise value ok digits
    obtain ⟨taken, isTaken, settled⟩ := Operation.apply_eq_settle value
    obtain ⟨first, rfl, rfl⟩ := settle_eq_ok_iff.mp (settled.symm.trans ok)
    exact ⟨first, (isTaken.represents rfl).roundsTwice (abs_lt_limit_of_normalize digits)⟩
  · intro literal result plain ok digits
    unfold parse at ok
    split at ok
    next first read =>
      cases ok
      rw [ofLiteralChars?, plain, if_neg Bool.false_ne_true] at read
      have represents := represents_of_ofPlainChars? read
      exact ⟨first, represents.roundsTwice (abs_lt_limit_of_normalize digits)⟩
    next => cases ok

theorem results_are_rounded_twice_of_thirds :
    (∃ result, Operation.divide.apply .empty (ofInteger 2 (by decide)) (ofInteger 3 (by decide)) =
        .ok result ∧
      ∃ first exponent, RoundsTwice .even (2 / 3) first exponent result.toRat) ∧
    ∃ result, parse " 0.66666666666666666 " = .ok result ∧
      ∃ first exponent, RoundsTwice .away 0.66666666666666666 first exponent result.toRat := by
  have quotient :
      Operation.divide.apply .empty (ofInteger 2 (by decide)) (ofInteger 3 (by decide)) =
        .ok { mantissa := 6666666666666667, scale := 16 } := by decide +kernel
  have read : parse " 0.66666666666666666 " =
      .ok { mantissa := 6666666666666667, scale := 16 } := by decide +kernel
  have digits : HasDigits 16 (toRat { mantissa := 6666666666666667, scale := 16 }) :=
    ⟨6666666666666667, -16, by decide, by decide +kernel⟩
  have value : plainValue (trimChars " 0.66666666666666666 ".toList) = 0.66666666666666666 := by
    decide +kernel
  refine ⟨⟨_, quotient, ?_⟩, ⟨_, read, ?_⟩⟩
  · exact results_are_rounded_twice.1 .divide _ _ _ _ _ (by decide +kernel) quotient digits
  · rw [← value]
    exact results_are_rounded_twice.2 _ _ (by decide +kernel) read digits

/-- Rounded at once, the sum and the first literal would end with 7. They are rounded to the middle
between 6 and 7 first, and from there to the even one. The second literal would vanish: it lies half
way between nothing and one unit of the 28th place. -/
theorem results_rounded_once_otherwise :
    (∃ left right precise result,
      HasDigits 16 (normalize left).toRat ∧ HasDigits 16 (normalize right).toRat ∧
      Operation.add.value? (normalize left).toRat (normalize right).toRat = some precise ∧
      Operation.add.apply .empty left right = .ok result ∧ ¬RoundsOnce precise result.toRat) ∧
    (∃ result, parse "1.23456789012345650000000000004" = .ok result ∧
      ¬RoundsOnce (plainValue "1.23456789012345650000000000004".toList) result.toRat) ∧
    ∃ result, parse "0.00000000000000000000000000005" = .ok result ∧
      ¬RoundsOnce (plainValue "0.00000000000000000000000000005".toList) result.toRat := by
  refine ⟨?sum, ?literal, ?half⟩
  case sum =>
    refine ⟨ofInteger 1234567890123456 (by decide), { mantissa := 5000000000000001, scale := 16 },
      1234567890123456.5000000000000001, ofInteger 1234567890123456 (by decide),
      ⟨1234567890123456, 0, by decide, by decide +kernel⟩,
      ⟨5000000000000001, -16, by decide, by decide +kernel⟩,
      by decide +kernel, by decide +kernel, ?_⟩
    have last : IsLastPlace 1234567890123456.5000000000000001 0 :=
      ⟨by decide, by norm_num [abs_lt], .inr (by norm_num [le_abs])⟩
    exact not_roundsOnce_of_far last (by decide +kernel)
  case literal =>
    refine ⟨{ mantissa := 1234567890123456, scale := 15 }, by decide +kernel, ?_⟩
    have value : plainValue "1.23456789012345650000000000004".toList =
        1.23456789012345650000000000004 := by decide +kernel
    have last : IsLastPlace 1.23456789012345650000000000004 (-15) :=
      ⟨by decide, by norm_num [abs_lt], .inr (by norm_num [le_abs])⟩
    rw [value]
    exact not_roundsOnce_of_far last (by decide +kernel)
  case half =>
    refine ⟨{ mantissa := 1, scale := 28 }, by decide +kernel, ?_⟩
    have value : plainValue "0.00000000000000000000000000005".toList = 1 / 2 * 10 ^ (-28 : ℤ) := by
      decide +kernel
    have last : IsLastPlace (1 / 2 * 10 ^ (-28 : ℤ)) (-28) :=
      ⟨le_rfl, by norm_num [abs_lt], .inl rfl⟩
    rw [value]
    rintro ⟨exponent, isLast, whole, nearest, result⟩
    obtain rfl := isLast.unique last
    have unit : whole = 1 := by
      have one : toRat { mantissa := 1, scale := 28 } = 1 * 10 ^ (-28 : ℤ) := by decide +kernel
      have equal := mul_right_cancel₀ (zpow_ne_zero _ (by norm_num)) (one.symm.trans result)
      exact_mod_cast equal.symm
    have even : Even (1 : ℤ) := unit ▸ nearest.tied (by rw [unit]; decide +kernel)
    exact absurd even (by decide)

end Arithmetic

end Rulebook

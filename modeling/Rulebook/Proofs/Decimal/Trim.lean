import Rulebook.Decimal.Basic

/-!
# Trimming finds one form for each value

Dropping trailing zeros keeps the value of a decimal, and decimals of equal value are trimmed to
the same mantissa and scale. Neither can keep the sign of a zero.
-/
namespace Rulebook.Decimal

/-- Trimming keeps the value. -/
theorem trimParts_value (mantissa : Int) (places : Nat) :
    (trimParts mantissa places).1 * powerOfTen places
      = mantissa * powerOfTen (trimParts mantissa places).2 := by
  induction places generalizing mantissa with
  | zero => rfl
  | succ places ih =>
    rw [trimParts]
    split
    next divisible =>
      -- One place less and one digit less are the same value.
      have shifted : mantissa = mantissa / 10 * 10 := by omega
      calc (trimParts (mantissa / 10) places).1 * (powerOfTen (places + 1) : Int)
          = (trimParts (mantissa / 10) places).1 * powerOfTen places * 10 := by
            rw [powerOfTen_succ, Int.natCast_mul, Int.mul_assoc]
            rfl
        _ = mantissa / 10 * powerOfTen (trimParts (mantissa / 10) places).2 * 10 := by rw [ih]
        _ = mantissa / 10 * 10 * powerOfTen (trimParts (mantissa / 10) places).2 := by
            rw [Int.mul_right_comm]
        _ = mantissa * powerOfTen (trimParts (mantissa / 10) places).2 := by rw [← shifted]
    next => rfl

/-- It stops only without places or before a digit that is not zero. -/
theorem trimParts_trimmed (mantissa : Int) (places : Nat) :
    (trimParts mantissa places).2 = 0 ∨ (trimParts mantissa places).1 % 10 ≠ 0 := by
  induction places generalizing mantissa with
  | zero => exact Or.inl rfl
  | succ places ih =>
    rw [trimParts]
    split
    next => exact ih _
    next kept => exact Or.inr kept

theorem trim_trimmed (number : Decimal) : number.trim.scale = 0 ∨ number.trim.mantissa % 10 ≠ 0 :=
  trimParts_trimmed _ _

theorem toRat_eq_iff (left right : Decimal) :
    left.toRat = right.toRat ↔
      left.mantissa * powerOfTen right.scale = right.mantissa * powerOfTen left.scale :=
  Rat.mkRat_eq_iff (Nat.ne_of_gt (powerOfTen_pos _)) (Nat.ne_of_gt (powerOfTen_pos _))

theorem toRat_trim (number : Decimal) : number.trim.toRat = number.toRat :=
  (toRat_eq_iff _ _).mpr (trimParts_value number.mantissa number.scale)

/-- A trimmed form has no more places than any other of the same value. -/
theorem scale_le_of_value {mantissa other : Int} {places more : Nat}
    (equal : mantissa * powerOfTen more = other * powerOfTen places)
    (trimmed : more = 0 ∨ other % 10 ≠ 0) : more ≤ places := by
  rcases Nat.lt_or_ge places more with fewer | enough
  · obtain ⟨gap, rfl⟩ : ∃ gap, more = places + gap + 1 := ⟨more - places - 1, by omega⟩
    have positive : (powerOfTen places : Int) ≠ 0 := by
      exact_mod_cast Nat.ne_of_gt (powerOfTen_pos places)
    -- With fewer places on the left, the right mantissa would end with a zero.
    have multiple : mantissa * powerOfTen gap * 10 = other := by
      apply Int.eq_of_mul_eq_mul_right positive
      rw [← equal, powerOfTen_succ, powerOfTen_add]
      push_cast
      simp only [Int.mul_comm, Int.mul_left_comm]
    rcases trimmed with none | last
    · omega
    · exact absurd (multiple ▸ Int.mul_emod_left _ 10) last
  · exact enough

/-- Decimals have the same trimmed form exactly if they have the same value. -/
theorem trim_eq_trim_iff (left right : Decimal) :
    left.trim = right.trim ↔ left.toRat = right.toRat := by
  constructor
  · intro same
    rw [← toRat_trim left, same, toRat_trim]
  · intro equal
    have values := (toRat_eq_iff left.trim right.trim).mp (by rw [toRat_trim, toRat_trim, equal])
    -- Neither scale can exceed the other, so the mantissas stand over one power of ten.
    have scales : left.trim.scale = right.trim.scale :=
      Nat.le_antisymm
        (scale_le_of_value values.symm (trimParts_trimmed left.mantissa left.scale))
        (scale_le_of_value values (trimParts_trimmed right.mantissa right.scale))
    have positive : (powerOfTen right.trim.scale : Int) ≠ 0 := by
      exact_mod_cast Nat.ne_of_gt (powerOfTen_pos _)
    have mantissas : left.trim.mantissa = right.trim.mantissa := by
      rw [scales] at values
      exact Int.eq_of_mul_eq_mul_right positive values
    exact Decimal.ext mantissas scales rfl

end Rulebook.Decimal

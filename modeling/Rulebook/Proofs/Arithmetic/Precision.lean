import Rulebook.Proofs.Decimal.Significant

/-!
# Precision of results

Every result of the kernel is a normal form, so it has sixteen significant digits unless it lies
beyond the limit of these. Where elementary arithmetic knows the exact value, that value alone
decides between a result and an overflow: the kernel overflows exactly if no decimal represents the
value, and not already where its result has no form of sixteen digits.
-/
namespace Rulebook

open Decimal

namespace Operation

/-- An operation of the kernel on two numbers, with a library of powers. -/
def apply (operation : Operation) (powers : PowerLibrary) (left right : Decimal) :
    Except ArithmeticError Decimal :=
  match operation with
  | .add => Arithmetic.add left right
  | .subtract => Arithmetic.subtract left right
  | .multiply => Arithmetic.multiply left right
  | .divide => Arithmetic.divide left right
  | .modulus => Arithmetic.modulus left right
  | .power => Arithmetic.power powers left right

/-- The exact value of an operation. Powers have none here, since the library decides how exactly
they are computed. -/
def value? : Operation → ℚ → ℚ → Option ℚ
  | .add, left, right => some (left + right)
  | .subtract, left, right => some (left - right)
  | .multiply, left, right => some (left * right)
  | .divide, left, right => if right = 0 then none else some (left / right)
  | .modulus, left, right =>
    if right = 0 then none else some (left - right * truncate (left / right))
  | .power, _, _ => none

end Operation

namespace Arithmetic

variable {operation : Operation} {taken : Option Decimal} {left right result : Decimal}

/-- What is settled is the normal form of what was found. -/
theorem settle_eq_ok_iff :
    settle operation taken = .ok result ↔
      ∃ number, taken = some number ∧ result = normalize number := by
  cases taken with
  | none => simp [settle]
  | some number => simp [settle, eq_comm]

theorem settle_eq_overflow_iff :
    settle operation taken = .error (.overflow operation) ↔ taken = none := by
  cases taken <;> simp [settle]

/-- Where the divisor is zero, both divisions fail alike; elsewhere they settle what they find. -/
theorem divide_eq_settle (divisor : (normalize right).mantissa ≠ 0) :
    divide left right = settle .divide ((normalize left).divide? (normalize right)) := by
  simp [divide, isZero, divisor]

theorem modulus_eq_settle (divisor : (normalize right).mantissa ≠ 0) :
    modulus left right = settle .modulus ((normalize left).remainder? (normalize right)) := by
  simp [modulus, isZero, divisor]

/-! Every result is a normal form. -/

theorem exists_normalize_of_settle (ok : settle operation taken = .ok result) :
    ∃ number, result = normalize number := by
  obtain ⟨number, -, normal⟩ := settle_eq_ok_iff.mp ok
  exact ⟨number, normal⟩

theorem exists_normalize_of_divide (ok : divide left right = .ok result) :
    ∃ number, result = normalize number := by
  unfold divide at ok
  dsimp only at ok
  split at ok
  · cases ok
  · exact exists_normalize_of_settle ok

theorem exists_normalize_of_modulus (ok : modulus left right = .ok result) :
    ∃ number, result = normalize number := by
  unfold modulus at ok
  dsimp only at ok
  split at ok
  · cases ok
  · exact exists_normalize_of_settle ok

theorem exists_normalize_of_power {powers : PowerLibrary}
    (ok : power powers left right = .ok result) :
    ∃ number, result = normalize number := by
  unfold power at ok
  dsimp only at ok
  split at ok
  next whole =>
    split at ok
    · split at ok
      · cases ok
      next magnitude found =>
        split at ok
        -- A negative exponent ends in a division, any other in the normal form itself.
        · exact exists_normalize_of_divide ok
        · cases ok
          exact ⟨magnitude, rfl⟩
    · cases ok
  next fractional =>
    split at ok
    · cases ok
    · exact exists_normalize_of_settle ok

end Arithmetic

namespace Operation

open Arithmetic

variable {operation : Operation} {powers : PowerLibrary} {left right result : Decimal} {precise : ℚ}

/-- Whatever the operation, its result is the normal form of a decimal. -/
theorem exists_normalize_of_ok (ok : operation.apply powers left right = .ok result) :
    ∃ number, result = normalize number := by
  cases operation with
  | add => exact exists_normalize_of_settle ok
  | subtract => exact exists_normalize_of_settle ok
  | multiply => exact exists_normalize_of_settle ok
  | divide => exact exists_normalize_of_divide ok
  | modulus => exact exists_normalize_of_modulus ok
  | power => exact exists_normalize_of_power ok

/-- An operation takes its exact value into the decimals and settles what it found. -/
theorem apply_eq_settle
    (value : operation.value? (normalize left).toRat (normalize right).toRat = some precise) :
    ∃ taken, IsTaken precise taken ∧
      operation.apply powers left right = settle operation taken := by
  cases operation with
  | add =>
    cases value
    exact ⟨_, add?_isTaken _ _, rfl⟩
  | subtract =>
    cases value
    exact ⟨_, subtract?_isTaken _ _, rfl⟩
  | multiply =>
    cases value
    exact ⟨_, multiply?_isTaken _ _, rfl⟩
  | divide =>
    rw [value?] at value
    split at value
    · cases value
    next nonzero =>
      cases value
      have divisor := mt (mantissa_eq_zero_iff _).mp nonzero
      exact ⟨_, divide?_isTaken _ divisor, divide_eq_settle divisor⟩
  | modulus =>
    rw [value?] at value
    split at value
    · cases value
    next nonzero =>
      cases value
      exact ⟨_, remainder?_isTaken _ _, modulus_eq_settle (mt (mantissa_eq_zero_iff _).mp nonzero)⟩
  | power => cases value

/-- A result has sixteen digits exactly if it lies below the limit of these, and the exact value
decides whether there is a result. -/
theorem precision_of_results (operation : Operation) (powers : PowerLibrary)
    (left right : Decimal) :
    (∀ result, operation.apply powers left right = .ok result →
      (HasDigits 16 result.toRat ↔ |result.toRat| < digitLimit)) ∧
    ∀ precise, operation.value? (normalize left).toRat (normalize right).toRat = some precise →
      (operation.apply powers left right = .error (.overflow operation) ↔
        2 ^ 96 ≤ |precise| + 1 / 2) ∧
      ((∃ result, operation.apply powers left right = .ok result) ↔
        |precise| + 1 / 2 < 2 ^ 96) := by
  constructor
  · intro result ok
    obtain ⟨number, rfl⟩ := exists_normalize_of_ok ok
    -- A normal form has sixteen digits exactly below the limit.
    exact hasDigits_normalize_iff number
  · intro precise value
    -- The decimal taken for the exact value is missing exactly if that is out of range.
    obtain ⟨taken, isTaken, settled⟩ := apply_eq_settle value
    rw [settled]
    refine ⟨settle_eq_overflow_iff.trans isTaken.missing, ?_⟩
    rw [← not_le, ← isTaken.missing]
    cases taken <;> simp [settle]

/-- The largest decimal of sixteen digits. -/
def largest : Decimal :=
  ofInteger 79228162514264330000000000000 (by decide)

/-- A few trillions, which stand at the seventeenth digit beside `largest`. -/
def trillions (count : ℕ) (fits : count < 1000 := by decide) : Decimal :=
  ofInteger (count * 10 ^ 12) (by omega)

theorem precision_of_results_of_largest :
    (∃ result, add.apply .empty largest (trillions 4) = .ok result ∧ HasDigits 16 result.toRat) ∧
      add.value? (normalize largest).toRat (normalize (trillions 8)).toRat =
        some 79228162514264338000000000000 ∧
      add.apply .empty largest (trillions 8) = .error (.overflow .add) := by
  have sum : add.apply .empty largest (trillions 4) = .ok largest := by decide +kernel
  have value : add.value? (normalize largest).toRat (normalize (trillions 8)).toRat =
      some 79228162514264338000000000000 := by decide +kernel
  refine ⟨⟨_, sum, ((precision_of_results .add .empty _ _).1 _ sum).mpr ?_⟩, value,
    ((precision_of_results .add .empty _ _).2 _ value).1.mpr ?_⟩
  · decide +kernel
  · decide +kernel

/-- Between both lie sums that are returned with all their digits. -/
theorem sum_without_sixteen_digits :
    ∃ result, add.apply .empty largest (trillions 7) = .ok result ∧ ¬HasDigits 16 result.toRat := by
  refine ⟨ofInteger 79228162514264337000000000000 (by decide), by decide +kernel, fun digits => ?_⟩
  have below := digits.abs_lt_limit (abs_toRat_lt _)
  revert below
  decide +kernel

end Operation

end Rulebook

import Rulebook.Proofs.Arithmetic.Rounding
import Rulebook.Proofs.Decimal.Plain

/-!
# Numbers as text

A number is written as the plain notation of its normal form, and reading normalizes what it reads.
Normalizing a normal form changes nothing, so a number that is read back is its normal form, and
only numbers of one normal form are written alike.
-/
namespace Rulebook

open Decimal

/-- Normal forms of one value are one decimal. -/
theorem normalize_eq_normalize_iff (left right : Decimal) :
    normalize left = normalize right ↔ (normalize left).toRat = (normalize right).toRat := by
  rw [normalize_eq_trim, normalize_eq_trim, toRat_trim, toRat_trim, trim_eq_trim_iff]

/-- A number of sixteen digits is a multiple of its last place. -/
theorem HasDigits.exists_multiple {number : Decimal} (digits : HasDigits 16 number.toRat) :
    ∃ whole : ℤ, number.toRat = whole * 10 ^ number.lastPlace := by
  by_cases short : number.excess = 0
  · refine ⟨number.mantissa, ?_⟩
    rw [lastPlace, short, Nat.cast_zero, zero_sub, zpow_neg, zpow_natCast, toRat_eq_div,
      div_eq_mul_inv]
  · obtain ⟨coefficient, exponent, bounded, value⟩ := digits
    have below : |number.toRat| < 10 ^ (16 + exponent) := by
      have bounded : |(coefficient : ℚ)| < 10 ^ 16 := by exact_mod_cast bounded
      have step : (0 : ℚ) < 10 ^ exponent := zpow_pos (by norm_num) _
      rw [value, abs_mul, abs_of_pos step, zpow_add₀ (by norm_num)]
      exact mul_lt_mul_of_pos_right bounded step
    -- A number with an excess of digits fills the fifteen places above its last one.
    have reached : (10 : ℚ) ^ (15 + number.lastPlace) ≤ |number.toRat| := by
      have long : (10 : ℚ) ^ (15 + number.excess) ≤ |(number.mantissa : ℚ)| := by
        exact_mod_cast number.pow_le_abs_mantissa short
      have power : (10 : ℚ) ^ (15 + number.lastPlace)
          = 10 ^ (15 + number.excess) / 10 ^ number.scale := by
        rw [lastPlace, ← add_sub_assoc, zpow_sub₀ (by norm_num), zpow_natCast]
        exact_mod_cast rfl
      rw [power, toRat_eq_div, abs_div, abs_pow, Nat.abs_ofNat]
      exact div_le_div_of_nonneg_right long (by positivity)
    have le : number.lastPlace ≤ exponent := by
      have powers := reached.trans_lt below
      rw [zpow_lt_zpow_iff_right₀ (by norm_num)] at powers
      omega
    obtain ⟨whole, multiple⟩ := exists_multiple_of_le le coefficient
    exact ⟨whole, value.trans multiple⟩

/-- Sixteen digits are kept as they are. -/
theorem HasDigits.toRat_normalize {number : Decimal} (digits : HasDigits 16 number.toRat) :
    (normalize number).toRat = number.toRat := by
  -- A multiple of the last place is rounded to itself.
  have rounds := normalize_roundsTo (digits.abs_lt_limit number.abs_toRat_lt)
  obtain ⟨whole, multiple⟩ := digits.exists_multiple
  rw [multiple] at rounds ⊢
  exact rounds.eq_of_multiple

/-- A normal form is its own normal form, also where it has more than sixteen digits. -/
theorem normalize_normalize (number : Decimal) :
    normalize (normalize number) = normalize number := by
  rw [normalize_eq_normalize_iff]
  rcases lt_or_ge |(normalize number).toRat| digitLimit with below | above
  · exact ((hasDigits_normalize_iff number).mpr below).toRat_normalize
  · exact toRat_normalize_of_le above

namespace Arithmetic

theorem normalize_of_settle {operation : Operation} {taken : Option Decimal} {result : Decimal}
    (ok : settle operation taken = .ok result) : normalize result = result := by
  obtain ⟨number, rfl⟩ := exists_normalize_of_settle ok
  exact normalize_normalize number

/-- Plain notation has no blanks to trim and no exponent. -/
theorem parse_toPlain (number : Decimal) : parse number.toPlain = .ok (normalize number) := by
  have solid : ∀ character ∈ number.toPlain.toList, isBlank character = false := by
    intro character member
    rcases mem_toPlain member with digit | rfl | rfl
    · obtain ⟨first, last⟩ := Char.isDigit_iff_toNat.mp digit
      exact not_isBlank_of_visible (Nat.le_trans (by decide) first) (Nat.le_trans last (by decide))
    · rfl
    · rfl
  -- Without an exponent mark the text is read as plain notation.
  have unmarked : number.toPlain.toList.any isExponentMark = false := by
    rw [List.any_eq_false]
    intro character member
    rcases mem_toPlain member with digit | rfl | rfl
    · -- Both marks are letters.
      have noMark (mark : Char) (letter : mark.isDigit = false) : character ≠ mark := by
        rintro rfl
        rw [digit] at letter
        cases letter
      simp [isExponentMark, noMark 'e' rfl, noMark 'E' rfl]
    · decide
    · decide
  rw [parse, trimChars_eq_self solid, ofLiteralChars?, unmarked, if_neg Bool.false_ne_true,
    ofPlainChars?_toPlain]
  exact congrArg Except.ok (normalize_eq_of_toRat_eq number.toRat_unsignedZero)

/-- A number that is written plainly is read back as its normal form, with the same mantissa and
scale, and two numbers are written alike exactly if their normal forms are equal numbers. -/
theorem plain_text_tells_numbers (number other : Decimal) :
    parse (toPlain number) = .ok (normalize number) ∧
      (toPlain number = toPlain other ↔ (normalize number).toRat = (normalize other).toRat) := by
  have reads (number : Decimal) : parse (toPlain number) = .ok (normalize number) := by
    rw [toPlain, parse_toPlain, normalize_normalize]
  refine ⟨reads number, ?_⟩
  rw [← normalize_eq_normalize_iff]
  constructor
  · intro same
    -- What is written alike is read back alike.
    have read := reads number
    rw [same, reads other] at read
    exact (Except.ok.inj read).symm
  · intro same
    rw [toPlain, same, ← toPlain]

end Arithmetic

end Rulebook

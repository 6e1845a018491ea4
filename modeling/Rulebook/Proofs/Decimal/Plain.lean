import Rulebook.Proofs.Decimal.Represented
import Rulebook.Decimal.Literal

/-!
# Plain notation is read back

The plain notation of a decimal writes all of its places, and the reader has room for as many. So
every decimal is read back with its own mantissa and scale.
-/
namespace Rulebook.Decimal

/-! ### Digits -/

theorem digitValue?_of_isDigit {character : Char} (digit : character.isDigit = true) :
    digitValue? character = some (character.toNat - '0'.toNat) := by
  obtain ⟨first, last⟩ := Char.isDigit_iff_toNat.mp digit
  exact if_pos ⟨first, last⟩

/-- Further digits do not make a count smaller. -/
theorem le_ofDigitChars (digits : List Char) (count : Nat) :
    count ≤ Nat.ofDigitChars 10 digits count := by
  induction digits generalizing count with
  | nil => exact Nat.le_refl count
  | cons digit digits ih =>
    rw [Nat.ofDigitChars_cons]
    exact Nat.le_trans (by omega) (ih _)

/-- Padding with zeros does not change the count. -/
theorem ofDigitChars_paddedDigits (width count : Nat) :
    Nat.ofDigitChars 10 (paddedDigits width count) 0 = count := by
  rw [paddedDigits, Nat.ofDigitChars_append, Nat.ofDigitChars_replicate_zero, Nat.mul_zero,
    Nat.ofDigitChars_ten_toDigits]

theorem isDigit_of_mem_paddedDigits {width count : Nat} {character : Char}
    (member : character ∈ paddedDigits width count) : character.isDigit = true := by
  rcases List.mem_append.mp member with padding | digit
  · rw [List.eq_of_mem_replicate padding]
    rfl
  · exact Nat.isDigit_of_mem_toDigits (by decide) (by decide) digit

theorem le_length_paddedDigits (width count : Nat) : width ≤ (paddedDigits width count).length := by
  rw [paddedDigits, List.length_append, List.length_replicate]
  omega

/-- The digits before the point. -/
def wholeDigits (magnitude scale : Nat) : List Char :=
  let digits := paddedDigits (scale + 1) magnitude
  digits.take (digits.length - scale)

/-- The digits behind the point. -/
def fractionDigits (magnitude scale : Nat) : List Char :=
  let digits := paddedDigits (scale + 1) magnitude
  digits.drop (digits.length - scale)

section Parts

variable (magnitude scale : Nat)

theorem plainDigits_eq : plainDigits magnitude scale =
    if scale = 0 then wholeDigits magnitude scale
    else wholeDigits magnitude scale ++ '.' :: fractionDigits magnitude scale := rfl

theorem wholeDigits_append_fractionDigits :
    wholeDigits magnitude scale ++ fractionDigits magnitude scale =
      paddedDigits (scale + 1) magnitude :=
  List.take_append_drop _ _

/-- Behind the point stand as many digits as there are places. -/
theorem length_fractionDigits : (fractionDigits magnitude scale).length = scale := by
  have padded := le_length_paddedDigits (scale + 1) magnitude
  rw [fractionDigits, List.length_drop]
  omega

/-- At least one digit stands before the point. -/
theorem wholeDigits_ne_nil : wholeDigits magnitude scale ≠ [] := by
  have padded := le_length_paddedDigits (scale + 1) magnitude
  apply List.ne_nil_of_length_pos
  rw [wholeDigits, List.length_take]
  omega

/-- Digits on both sides of the point are one count. -/
theorem ofDigitChars_parts : Nat.ofDigitChars 10 (fractionDigits magnitude scale)
    (Nat.ofDigitChars 10 (wholeDigits magnitude scale) 0) = magnitude := by
  rw [← Nat.ofDigitChars_append, wholeDigits_append_fractionDigits, ofDigitChars_paddedDigits]

variable {magnitude scale} {character : Char}

theorem isDigit_of_mem_wholeDigits (member : character ∈ wholeDigits magnitude scale) :
    character.isDigit = true :=
  isDigit_of_mem_paddedDigits (List.mem_of_mem_take member)

theorem isDigit_of_mem_fractionDigits (member : character ∈ fractionDigits magnitude scale) :
    character.isDigit = true :=
  isDigit_of_mem_paddedDigits (List.mem_of_mem_drop member)

/-- There is nothing but digits and the point. -/
theorem mem_plainDigits (member : character ∈ plainDigits magnitude scale) :
    character.isDigit = true ∨ character = '.' := by
  rw [plainDigits_eq] at member
  split at member
  · exact .inl (isDigit_of_mem_wholeDigits member)
  · simp only [List.mem_append, List.mem_cons] at member
    rcases member with whole | point | fraction
    · exact .inl (isDigit_of_mem_wholeDigits whole)
    · exact .inr point
    · exact .inl (isDigit_of_mem_fractionDigits fraction)

end Parts

theorem exists_digit_cons (magnitude scale : Nat) :
    ∃ digit rest, plainDigits magnitude scale = digit :: rest ∧ digit.isDigit = true := by
  obtain ⟨digit, rest, whole⟩ := List.exists_cons_of_ne_nil (wholeDigits_ne_nil magnitude scale)
  have first : digit ∈ wholeDigits magnitude scale := whole ▸ List.mem_cons_self
  rw [plainDigits_eq, whole]
  split
  · exact ⟨digit, rest, rfl, isDigit_of_mem_wholeDigits first⟩
  · exact ⟨digit, _, rfl, isDigit_of_mem_wholeDigits first⟩

/-! ### The reader -/

namespace Reading

/-- What has been read after a run of digits. -/
def pushAll (reading : Reading) (digits : List Char) : Reading where
  coefficient := Nat.ofDigitChars 10 digits reading.coefficient
  scale := if reading.pointed then reading.scale + digits.length else reading.scale
  pointed := reading.pointed
  started := reading.started || !digits.isEmpty

theorem pushAll_nil (reading : Reading) : reading.pushAll [] = reading := by
  obtain ⟨coefficient, scale, pointed, started⟩ := reading
  cases pointed <;> simp [pushAll, Nat.ofDigitChars_nil]

/-- Digits are pushed one after the other. -/
theorem pushAll_cons (reading : Reading) (digit : Char) (digits : List Char) :
    reading.pushAll (digit :: digits) =
      (reading.push (digit.toNat - '0'.toNat)).pushAll digits := by
  obtain ⟨coefficient, scale, pointed, started⟩ := reading
  cases pointed <;>
    simp [pushAll, push, Nat.ofDigitChars_cons, Nat.mul_comm, Nat.add_comm, Nat.add_left_comm]

end Reading

/-- A run of digits for which there is room is taken whole. -/
theorem readUnsigned_digits {digits : List Char}
    (areDigits : ∀ digit ∈ digits, digit.isDigit = true)
    (rest : List Char) (reading : Reading)
    (room : (reading.pushAll digits).coefficient < 0x1_00000000_00000000_00000000)
    (places : (reading.pushAll digits).scale ≤ 28) :
    readUnsigned (digits ++ rest) reading = readUnsigned rest (reading.pushAll digits) := by
  induction digits generalizing reading with
  | nil => rw [List.nil_append, Reading.pushAll_nil]
  | cons digit digits ih =>
    obtain ⟨first, others⟩ := List.forall_mem_cons.mp areDigits
    -- There is room for the whole run, so the places are not used up at its first digit.
    have unfilled : ¬(reading.pointed ∧ 28 ≤ reading.scale) := by
      rintro ⟨pointed, full⟩
      simp only [Reading.pushAll, pointed, if_true, List.length_cons] at places
      omega
    rw [Reading.pushAll_cons] at room places ⊢
    have fits := Nat.lt_of_le_of_lt (le_ofDigitChars digits _) room
    rw [List.cons_append, readUnsigned, if_neg unfilled, digitValue?_of_isDigit first]
    simp only [if_pos fits]
    exact ih others _ room places

/-- The digits around the point are read as the magnitude and the scale that they were made of. -/
theorem readUnsigned_plainDigits {magnitude scale : Nat}
    (room : magnitude < 0x1_00000000_00000000_00000000) (places : scale ≤ 28) :
    readUnsigned (plainDigits magnitude scale) {} = some (magnitude, scale) := by
  have count := ofDigitChars_parts magnitude scale
  -- The digits before the point are a part of the count and have room as well.
  have wholeRoom := Nat.lt_of_le_of_lt (le_ofDigitChars (fractionDigits magnitude scale) _)
    (count.symm ▸ room)
  have started : ((wholeDigits magnitude scale).isEmpty = false) := by
    simpa using wholeDigits_ne_nil magnitude scale
  have length := length_fractionDigits magnitude scale
  rw [plainDigits_eq]
  split
  next none =>
    -- Without places there is nothing behind the point.
    subst none
    rw [List.length_eq_zero_iff.mp length, Nat.ofDigitChars_nil] at count
    rw [← List.append_nil (wholeDigits magnitude 0), readUnsigned_digits
      (fun _ => isDigit_of_mem_wholeDigits) [] {} wholeRoom (Nat.zero_le _), readUnsigned]
    simp [Reading.pushAll, started, count]
  next some =>
    have atPoint (reading : Reading) (before : reading.pointed = false) (rest : List Char) :
        readUnsigned ('.' :: rest) reading
          = readUnsigned rest { reading with pointed := true } := by
      have noDigit : digitValue? '.' = none := rfl
      simp [readUnsigned, before, noDigit]
    rw [readUnsigned_digits (fun _ => isDigit_of_mem_wholeDigits) _ {} wholeRoom (Nat.zero_le _),
      atPoint _ rfl, ← List.append_nil (fractionDigits magnitude scale), readUnsigned_digits
        (fun _ => isDigit_of_mem_fractionDigits) [] _ (by simpa [Reading.pushAll, count] using room)
        (by simpa [Reading.pushAll, length] using places), readUnsigned]
    simp [Reading.pushAll, started, count, length]

/-- The characters of plain notation: there is never an exponent. -/
theorem mem_toPlain {number : Decimal} {character : Char}
    (member : character ∈ number.toPlain.toList) :
    character.isDigit = true ∨ character = '.' ∨ character = '-' := by
  rw [toPlain, String.toList_ofList] at member
  split at member
  · rcases List.mem_cons.mp member with minus | digit
    · exact .inr (.inr minus)
    · exact (mem_plainDigits digit).imp_right .inl
  · exact (mem_plainDigits member).imp_right .inl

/-- The same number, but a zero without its sign. -/
def unsignedZero (number : Decimal) : Decimal :=
  ⟨number.mantissa, number.scale, false, number.mantissa_lt, number.scale_le, nofun⟩

theorem toRat_unsignedZero (number : Decimal) : number.unsignedZero.toRat = number.toRat := rfl

theorem ofParts?_eq_unsignedZero (number : Decimal) :
    ofParts? number.mantissa number.scale = some number.unsignedZero :=
  ofParts?_eq_some_iff.mpr ⟨rfl, rfl, rfl⟩

/-- The minus sign stands before negative numbers and negative zeros, so it can be put before the
magnitude. -/
theorem mantissa_eq_of_isSignNegative {number : Decimal} (negative : number.isSignNegative) :
    -(number.mantissa.natAbs : Int) = number.mantissa := by
  rcases Bool.or_eq_true_iff.mp negative with below | zero
  · have below : number.mantissa < 0 := of_decide_eq_true below
    omega
  · simp [number.mantissa_eq_zero zero]

theorem mantissa_eq_of_not_isSignNegative {number : Decimal} (nonneg : ¬number.isSignNegative) :
    (number.mantissa.natAbs : Int) = number.mantissa := by
  have notBelow : ¬number.mantissa < 0 := fun below =>
    nonneg (Bool.or_eq_true_iff.mpr (.inl (decide_eq_true below)))
  omega

/-- Plain notation is read back as the decimal that it was made of, places included. Only the sign
of a zero is lost. -/
theorem ofPlainChars?_toPlain (number : Decimal) :
    ofPlainChars? number.toPlain.toList = some number.unsignedZero := by
  have read := readUnsigned_plainDigits number.mantissa_lt number.scale_le
  rw [toPlain, String.toList_ofList]
  by_cases negative : number.isSignNegative
  · rw [if_pos negative, ofPlainChars?, read]
    -- The reader takes off the sign that the writer has put before the magnitude.
    change ofParts? (-(number.mantissa.natAbs : Int)) number.scale = some number.unsignedZero
    rw [mantissa_eq_of_isSignNegative negative, ofParts?_eq_unsignedZero]
  · have unsigned : (readUnsigned (plainDigits number.mantissa.natAbs number.scale) {} >>=
        fun parts => ofParts? parts.1 parts.2) = some number.unsignedZero := by
      rw [read]
      change ofParts? (number.mantissa.natAbs : Int) number.scale = some number.unsignedZero
      rw [mantissa_eq_of_not_isSignNegative negative, ofParts?_eq_unsignedZero]
    obtain ⟨digit, rest, digits, isDigit⟩ :=
      exists_digit_cons number.mantissa.natAbs number.scale
    rw [digits] at unsigned
    rw [if_neg negative, digits]
    -- The first character is a digit and so no sign.
    unfold ofPlainChars?
    split
    next minus =>
      obtain ⟨rfl, -⟩ := List.cons.inj minus
      exact absurd isDigit (by decide)
    next plus =>
      obtain ⟨rfl, -⟩ := List.cons.inj plus
      exact absurd isDigit (by decide)
    next => exact unsigned

end Rulebook.Decimal

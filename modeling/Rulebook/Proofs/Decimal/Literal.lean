import Mathlib.Data.Nat.Digits.Defs
import Rulebook.Decimal.Literal
import Rulebook.Proofs.Decimal.Represented

/-!
# Values of plain literals

A plain literal denotes its digits, read as one count, over a power of ten with as many zeros as
digits stand behind the point. The reader represents this value: it rounds half upward at the first
digit for which there is no room.
-/
namespace Rulebook.Decimal

/-- The digits of a text, whatever stands between them. -/
def digitsOf (characters : List Char) : List ℕ :=
  characters.filterMap digitValue?

/-- What stands behind the first point. -/
def behindPoint (characters : List Char) : List Char :=
  (characters.dropWhile (· != '.')).drop 1

/-- Digits as one count, the first one worth most. -/
def countOf (digits : List ℕ) : ℕ :=
  Nat.ofDigits 10 digits.reverse

/-- The value of the digits of a literal, without its sign. -/
def unsignedValue (characters : List Char) : ℚ :=
  countOf (digitsOf characters) / 10 ^ (digitsOf (behindPoint characters)).length

/-- The value that a plain literal denotes. -/
def plainValue (characters : List Char) : ℚ :=
  if characters.head? = some '-' then -unsignedValue characters else unsignedValue characters

section Digits

theorem digitValue?_lt {character : Char} {digit : ℕ} (read : digitValue? character = some digit) :
    digit < 10 := by
  unfold digitValue? at read
  split at read
  next within =>
    cases read
    have last : character.toNat ≤ '9'.toNat := within.2
    have nine : '9'.toNat = '0'.toNat + 9 := rfl
    omega
  next => cases read

theorem digitsOf_lt {characters : List Char} {digit : ℕ} (member : digit ∈ digitsOf characters) :
    digit < 10 := by
  obtain ⟨character, -, read⟩ := List.mem_filterMap.mp member
  exact digitValue?_lt read

theorem digitsOf_cons_some {character : Char} {digit : ℕ}
    (read : digitValue? character = some digit) (rest : List Char) :
    digitsOf (character :: rest) = digit :: digitsOf rest :=
  List.filterMap_cons_some read

theorem digitsOf_cons_none {character : Char} (read : digitValue? character = none)
    (rest : List Char) : digitsOf (character :: rest) = digitsOf rest :=
  List.filterMap_cons_none read

/-- The first digit is worth a power of ten with as many zeros as digits follow. -/
theorem countOf_cons (digit : ℕ) (digits : List ℕ) :
    countOf (digit :: digits) = digit * 10 ^ digits.length + countOf digits := by
  rw [countOf, List.reverse_cons, Nat.ofDigits_append, Nat.ofDigits_singleton, List.length_reverse,
    Nat.mul_comm, Nat.add_comm]
  rfl

theorem countOf_lt {digits : List ℕ} (small : ∀ digit ∈ digits, digit < 10) :
    countOf digits < 10 ^ digits.length := by
  rw [← List.length_reverse]
  exact Nat.ofDigits_lt_base_pow_length (by decide) fun digit member =>
    small digit (List.mem_reverse.mp member)

/-- The part of one unit that digits behind the last place make. -/
def fractionOf (digits : List ℕ) : ℚ :=
  countOf digits / 10 ^ digits.length

theorem fractionOf_nonneg (digits : List ℕ) : 0 ≤ fractionOf digits := by
  rw [fractionOf]
  positivity

theorem fractionOf_lt_one {digits : List ℕ} (small : ∀ digit ∈ digits, digit < 10) :
    fractionOf digits < 1 := by
  rw [fractionOf, div_lt_one (by positivity)]
  exact_mod_cast countOf_lt small

/-- The first digit alone decides whether a fraction reaches one half. -/
theorem half_le_fractionOf_iff {digits : List ℕ} (small : ∀ digit ∈ digits, digit < 10) :
    1 / 2 ≤ fractionOf digits ↔ digits.head?.any (5 ≤ ·) := by
  cases digits with
  | nil => norm_num [fractionOf, countOf]
  | cons digit digits =>
    have below := countOf_lt fun digit member => small digit (List.mem_cons_of_mem _ member)
    have whole : (10 : ℚ) ^ (digit :: digits).length = (10 * 10 ^ digits.length : ℕ) := by
      rw [List.length_cons, pow_succ, mul_comm]
      norm_num
    rw [fractionOf, whole, half_le_div_iff (by positivity), countOf_cons]
    simp only [List.head?_cons, Option.any_some, decide_eq_true_eq]
    constructor
    -- A first digit of four at most leaves even all the following below one half.
    · intro large
      by_contra low
      have low : digit * 10 ^ digits.length ≤ 4 * 10 ^ digits.length :=
        Nat.mul_le_mul_right _ (by omega)
      omega
    -- A first digit of five is one half by itself.
    · intro high
      have high : 5 * 10 ^ digits.length ≤ digit * 10 ^ digits.length :=
        Nat.mul_le_mul_right _ high
      omega

end Digits

/-! ### The reader -/

namespace Reading

/-- The value of what has been read, followed by the rest of the literal. -/
def total (reading : Reading) (rest : List Char) : ℚ :=
  (reading.coefficient * 10 ^ (digitsOf rest).length + countOf (digitsOf rest)) /
    10 ^ (reading.scale + (digitsOf (if reading.pointed then rest else behindPoint rest)).length)

/-- A reading is kept in the range of decimals. -/
structure Fits (reading : Reading) : Prop where
  coefficient : reading.coefficient < 2 ^ 96
  scale : reading.scale ≤ 28

variable {reading : Reading} {character : Char} {rest : List Char}

theorem total_nil (reading : Reading) :
    reading.total [] = reading.coefficient / 10 ^ reading.scale := by
  simp [total, digitsOf, countOf, behindPoint]

theorem total_mul_pow (pointed : reading.pointed) (rest : List Char) :
    reading.total rest * 10 ^ reading.scale = reading.coefficient + fractionOf (digitsOf rest) := by
  rw [total, if_pos pointed, fractionOf, pow_add]
  field_simp

/-- Taking a digit keeps the total. -/
theorem total_push {digit : ℕ} (read : digitValue? character = some digit) :
    reading.total (character :: rest) = (reading.push digit).total rest := by
  have noPoint : character ≠ '.' := by
    rintro rfl
    cases read
  -- The digit joins the count, and if it stands behind the point it fills one more place.
  have count : reading.coefficient * 10 ^ (digitsOf (character :: rest)).length +
      countOf (digitsOf (character :: rest)) =
        (reading.push digit).coefficient * 10 ^ (digitsOf rest).length +
          countOf (digitsOf rest) := by
    rw [digitsOf_cons_some read, countOf_cons, List.length_cons, push]
    ring
  have places : reading.scale +
      (digitsOf (if reading.pointed then character :: rest
        else behindPoint (character :: rest))).length =
        (reading.push digit).scale +
          (digitsOf (if reading.pointed then rest else behindPoint rest)).length := by
    cases pointed : reading.pointed with
    | true =>
      simp only [push, pointed, digitsOf_cons_some read, if_true, List.length_cons]
      omega
    | false => simp [push, pointed, behindPoint, noPoint]
  have count : (reading.coefficient : ℚ) * 10 ^ (digitsOf (character :: rest)).length +
      countOf (digitsOf (character :: rest)) =
        (reading.push digit).coefficient * 10 ^ (digitsOf rest).length +
          countOf (digitsOf rest) := by exact_mod_cast count
  rw [total, places, count]
  rfl

/-- Passing over an underscore keeps the total. -/
theorem total_skip (read : digitValue? character = none) (noPoint : character ≠ '.') :
    reading.total (character :: rest) = reading.total rest := by
  have behind : behindPoint (character :: rest) = behindPoint rest := by
    simp [behindPoint, noPoint]
  cases pointed : reading.pointed <;> simp [total, pointed, digitsOf_cons_none read, behind]

/-- So does the point, which only opens the places. -/
theorem total_point (before : reading.pointed = false) :
    reading.total ('.' :: rest) = ({ reading with pointed := true } : Reading).total rest := by
  have none : digitValue? '.' = none := rfl
  simp [total, before, digitsOf_cons_none none, behindPoint]

/-- Digits that are all read are none left out. -/
theorem mapM_eq_filterMap {characters : List Char} {digits : List ℕ}
    (read : characters.mapM digitValue? = some digits) :
    characters.filterMap digitValue? = digits := by
  induction characters generalizing digits with
  | nil =>
    cases read
    rfl
  | cons character rest ih =>
    rw [List.mapM_cons] at read
    obtain ⟨digit, first, read⟩ := Option.bind_eq_some_iff.mp read
    obtain ⟨others, behind, read⟩ := Option.bind_eq_some_iff.mp read
    cases read
    rw [List.filterMap_cons_some first, ih behind]

/-- The characters that are left when the reading ends are digits and underscores. -/
theorem digitsOf_eq {digits : List ℕ}
    (read : (rest.filter (· != '_')).mapM digitValue? = some digits) : digitsOf rest = digits := by
  rw [← mapM_eq_filterMap read, List.filterMap_filter]
  apply List.filterMap_congr
  intro character _
  by_cases underscore : character = '_'
  · subst underscore
    rfl
  · simp [underscore]

theorem total_nonneg (reading : Reading) (rest : List Char) : 0 ≤ reading.total rest := by
  rw [total]
  positivity

/-- Rounding up gives the largest mantissa no further room: its last place is given up. -/
theorem represents_of_roundUp {coefficient scale : ℕ} {number : Decimal} {precise : ℚ}
    (fits : reading.Fits) {part : ℚ} (large : 1 / 2 ≤ part) (below : part < 1)
    (value : precise * 10 ^ reading.scale = reading.coefficient + part) (positive : 0 ≤ precise)
    (full : reading.scale = 28 ∨ 2 ^ 96 ≤ precise * 10 ^ (reading.scale + 1))
    (read : reading.roundUp = some (coefficient, scale))
    (mantissa : number.mantissa = coefficient) (places : number.scale = scale) :
    Represents .away precise number := by
  unfold roundUp at read
  split at read
  -- The part is one half or more, so the next mantissa is nearest.
  next room =>
    cases read
    refine ⟨?_, .inr ?_⟩
    · rw [places, value, mantissa]
      exact isNearest_up large below fun _ => .inl rfl
    · rw [places, abs_of_nonneg positive]
      exact full.imp_right fun full => full.trans (by linarith)
  next noRoom =>
    split at read
    next => cases read
    next behind =>
      cases read
      -- Only the largest mantissa comes here: the exact value lies within one half below `2 ^ 96`.
      have last : reading.coefficient = 2 ^ 96 - 1 := by
        have := fits.coefficient
        omega
      obtain ⟨fewer, scale⟩ := Nat.exists_eq_succ_of_ne_zero behind
      rw [scale, Nat.succ_sub_one] at places
      rw [last] at mantissa value
      rw [scale, pow_succ] at value
      refine ⟨?_, .inr (.inr ?_)⟩
      · rw [places, mantissa]
        apply IsNearest.of_near
        rw [abs_lt]
        norm_num at value ⊢
        constructor <;> linarith
      · rw [places, abs_of_nonneg positive, pow_succ (10 : ℚ) fewer, value]
        norm_num
        linarith

theorem represents_of_roundOn {coefficient scale : ℕ} {number : Decimal}
    (fits : reading.Fits) (pointed : reading.pointed)
    (full : reading.scale = 28 ∨ 2 ^ 96 ≤ reading.total rest * 10 ^ (reading.scale + 1))
    (read : reading.roundOn rest = some (coefficient, scale))
    (mantissa : number.mantissa = coefficient) (places : number.scale = scale) :
    Represents .away (reading.total rest) number := by
  obtain ⟨digits, digitsRead, read⟩ := Option.bind_eq_some_iff.mp read
  have small : ∀ digit ∈ digits, digit < 10 := digitsOf_eq digitsRead ▸ fun _ => digitsOf_lt
  -- Behind the point the rest is a fraction of one unit.
  have value := total_mul_pow pointed rest
  rw [digitsOf_eq digitsRead] at value
  have half := half_le_fractionOf_iff small
  have positive := total_nonneg reading rest
  split at read
  next large =>
    exact represents_of_roundUp fits (half.mpr large) (fractionOf_lt_one small) value positive full
      read mantissa places
  -- Below one half the mantissa stays as it is.
  next notLarge =>
    have low : fractionOf digits < 1 / 2 := not_le.mp fun large => notLarge (half.mp large)
    cases read
    refine ⟨?_, .inr ?_⟩
    · rw [places, value, mantissa]
      exact isNearest_down (fractionOf_nonneg digits) low.le fun half => absurd half low.ne
    · rw [places, abs_of_nonneg positive]
      exact full.imp_right fun full => full.trans (by linarith)

theorem Fits.push (fits : reading.Fits) {digit : ℕ}
    (unfilled : ¬(reading.pointed ∧ 28 ≤ reading.scale))
    (room : (reading.push digit).coefficient < 2 ^ 96) : (reading.push digit).Fits where
  coefficient := room
  scale := by
    have within := fits.scale
    rw [Reading.push]
    dsimp only
    split
    next pointed => exact Nat.lt_of_not_le fun full => unfilled ⟨pointed, full⟩
    next => exact within

end Reading

/-- What is read of a literal represents its value: each character that is taken keeps the total of
the reading and the rest, and where no room is left the total is rounded. -/
theorem represents_of_readUnsigned {characters : List Char} {reading : Reading}
    {coefficient scale : ℕ} {number : Decimal} (fits : reading.Fits)
    (read : readUnsigned characters reading = some (coefficient, scale))
    (mantissa : number.mantissa = coefficient) (places : number.scale = scale) :
    Represents .away (reading.total characters) number := by
  fun_induction readUnsigned characters reading with
  | case1 reading started =>
    cases read
    have value : number.toRat = reading.total [] := by
      rw [toRat_eq_div, Reading.total_nil, mantissa, places, Int.cast_natCast]
    -- At the end of the literal nothing has been rounded.
    exact .of_eq value
  | case3 character rest reading filled =>
    -- All 28 places are taken, so the rest is rounded.
    exact Reading.represents_of_roundOn fits filled.1 (.inl (le_antisymm fits.scale filled.2)) read
      mantissa places
  | case4 character rest reading unfilled digit digitRead next room ih =>
    rw [Reading.total_push digitRead]
    exact ih (fits.push unfilled room) read
  | case5 character rest reading unfilled digit digitRead next noRoom pointed =>
    refine Reading.represents_of_roundOn fits pointed (.inr ?_) read mantissa places
    -- One place more would need the mantissa that the digit makes, which is out of range.
    have places : reading.scale + 1 = next.scale := (if_pos pointed).symm
    have pointed : next.pointed := pointed
    have whole : (2 ^ 96 : ℚ) ≤ next.coefficient := by exact_mod_cast Nat.le_of_not_lt noRoom
    rw [Reading.total_push digitRead, places, Reading.total_mul_pow pointed]
    exact whole.trans (le_add_of_nonneg_right (fractionOf_nonneg _))
  | case8 rest reading unfilled unpointed noDigit ih =>
    have before : reading.pointed = false := Bool.eq_false_iff.mpr unpointed
    rw [Reading.total_point before]
    exact ih ⟨fits.coefficient, fits.scale⟩ read
  | case9 rest reading unfilled started noDigit noPoint ih =>
    rw [Reading.total_skip noDigit noPoint]
    exact ih fits read
  | case2 | case6 | case7 | case10 | case11 => cases read

theorem total_start (characters : List Char) :
    ({} : Reading).total characters = unsignedValue characters := by
  simp [Reading.total, unsignedValue]

theorem represents_of_start {characters : List Char} {coefficient scale : ℕ} {number : Decimal}
    (read : readUnsigned characters {} = some (coefficient, scale))
    (mantissa : number.mantissa = coefficient) (places : number.scale = scale) :
    Represents .away (unsignedValue characters) number := by
  rw [← total_start]
  exact represents_of_readUnsigned ⟨by decide, by decide⟩ read mantissa places

theorem unsignedValue_sign {sign : Char} (noDigit : digitValue? sign = none) (noPoint : sign ≠ '.')
    (rest : List Char) : unsignedValue (sign :: rest) = unsignedValue rest := by
  rw [← total_start, ← total_start, Reading.total_skip noDigit noPoint]

theorem exists_of_signed {characters : List Char} {number : Decimal} (signed : ℕ → ℤ)
    (read : (do
      let (coefficient, scale) ← readUnsigned characters {}
      ofParts? (signed coefficient) scale) = some number) :
    ∃ coefficient scale, readUnsigned characters {} = some (coefficient, scale) ∧
      number.mantissa = signed coefficient ∧ number.scale = scale := by
  obtain ⟨⟨coefficient, scale⟩, unsigned, made⟩ := Option.bind_eq_some_iff.mp read
  obtain ⟨mantissa, places, -⟩ := ofParts?_eq_some_iff.mp made
  exact ⟨coefficient, scale, unsigned, mantissa, places⟩

/-- A plain literal is read as a number that represents its value, with ties away from zero. -/
theorem represents_of_ofPlainChars? {characters : List Char} {number : Decimal}
    (read : ofPlainChars? characters = some number) :
    Represents .away (plainValue characters) number := by
  unfold ofPlainChars? at read
  split at read
  next rest =>
    obtain ⟨coefficient, scale, unsigned, mantissa, places⟩ := exists_of_signed (-·) read
    rw [plainValue, if_pos List.head?_cons, unsignedValue_sign rfl (by decide)]
    -- The reader puts the sign before the magnitude, which represents the rest.
    have magnitude : Represents .away (unsignedValue rest) number.negate :=
      represents_of_start unsigned (by simp [mantissa]) places
    exact negate_negate number ▸ magnitude.neg
  next rest =>
    obtain ⟨coefficient, scale, unsigned, mantissa, places⟩ := exists_of_signed (·) read
    rw [plainValue, if_neg (by simp), unsignedValue_sign rfl (by decide)]
    exact represents_of_start unsigned mantissa places
  next noMinus noPlus =>
    obtain ⟨coefficient, scale, unsigned, mantissa, places⟩ := exists_of_signed (·) read
    -- Without a sign the literal is its own magnitude.
    have unsignedHead : ¬characters.head? = some '-' := by
      intro head
      obtain ⟨rest, rfl⟩ := List.head?_eq_some_iff.mp head
      exact noMinus rest rfl
    rw [plainValue, if_neg unsignedHead]
    exact represents_of_start unsigned mantissa places

end Rulebook.Decimal

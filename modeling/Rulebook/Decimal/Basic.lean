import Rulebook.Decimal.PowerOfTen

/-!
# Decimals

A decimal is a signed mantissa of at most 96 bits over a power of ten of at most 28 places.
Equal numbers can differ in places, and a zero can have the minus sign: 1.5 and 1.500 are two
decimals with one numeric value, and so are 0 and -0. Structural equality and the numeric
comparison are therefore kept apart.
-/
namespace Rulebook

/-- The number `mantissa / 10 ^ scale`; the mantissa is below `2 ^ 96`. -/
@[ext]
structure Decimal where
  mantissa : Int
  scale : Nat
  /-- The minus sign of a zero; every other number has its sign in the mantissa. -/
  isNegativeZero : Bool := false
  mantissa_lt : mantissa.natAbs < 0x1_00000000_00000000_00000000 := by decide
  scale_le : scale ≤ 28 := by decide
  mantissa_eq_zero : isNegativeZero = true → mantissa = 0 := by decide
deriving DecidableEq

namespace Decimal

/-- The decimal with exactly this mantissa and scale, when both are in range. -/
def ofParts? (mantissa : Int) (scale : Nat) : Option Decimal :=
  if mantissa_lt : mantissa.natAbs < 0x1_00000000_00000000_00000000 then
    if scale_le : scale ≤ 28 then some ⟨mantissa, scale, false, mantissa_lt, scale_le, nofun⟩
    else none
  else none

/-- The decimal with this mantissa and scale, where a zero takes the given sign. -/
def ofSigned (negative : Bool) (mantissa : Int) (scale : Nat)
    (mantissa_lt : mantissa.natAbs < 0x1_00000000_00000000_00000000) (scale_le : scale ≤ 28) :
    Decimal :=
  ⟨mantissa, scale, negative && mantissa == 0, mantissa_lt, scale_le, fun isZero => by
    simpa using (Bool.and_eq_true_iff.mp isZero).2⟩

section OfSigned

variable (negative : Bool) (mantissa : Int) (scale : Nat)
  (mantissa_lt : mantissa.natAbs < 0x1_00000000_00000000_00000000) (scale_le : scale ≤ 28)

@[simp]
theorem mantissa_ofSigned :
    (ofSigned negative mantissa scale mantissa_lt scale_le).mantissa = mantissa := rfl

@[simp]
theorem scale_ofSigned :
    (ofSigned negative mantissa scale mantissa_lt scale_le).scale = scale := rfl

theorem isNegativeZero_ofSigned :
    (ofSigned negative mantissa scale mantissa_lt scale_le).isNegativeZero
      = (negative && mantissa == 0) := rfl

end OfSigned

/-- A number without places behind the point has none too many. -/
theorem no_places_le : 0 ≤ 28 := by decide

def zero : Decimal := { mantissa := 0, scale := 0 }

def one : Decimal := { mantissa := 1, scale := 0 }

instance : Inhabited Decimal := ⟨zero⟩

/-- The whole number `count`, when it is in range. -/
def ofNat? (count : Nat) : Option Decimal :=
  ofParts? count 0

/-- A whole number that is known to be in range. -/
def ofInteger (value : Int) (inRange : value.natAbs < 0x1_00000000_00000000_00000000) : Decimal :=
  ⟨value, 0, false, inRange, by decide, nofun⟩

/-- The exact numeric value. -/
def toRat (number : Decimal) : Rat :=
  mkRat number.mantissa (powerOfTen number.scale)

def isZero (number : Decimal) : Bool :=
  number.mantissa == 0

/-- Whether the number is below zero. -/
def isNegative (number : Decimal) : Bool :=
  decide (number.mantissa < 0)

/-- Whether the number has the minus sign, which a zero can have too. -/
def isSignNegative (number : Decimal) : Bool :=
  number.isNegative || number.isNegativeZero

/-- The same magnitude without its sign. -/
def abs (number : Decimal) : Decimal :=
  ⟨number.mantissa.natAbs, number.scale, false, by
    rw [Int.natAbs_natCast]
    exact number.mantissa_lt, number.scale_le, nofun⟩

/-- The same magnitude with the other sign. -/
def negate (number : Decimal) : Decimal :=
  ofSigned (!number.isSignNegative) (-number.mantissa) number.scale (by
    rw [Int.natAbs_neg]
    exact number.mantissa_lt) number.scale_le

@[simp]
theorem mantissa_negate (number : Decimal) : number.negate.mantissa = -number.mantissa := rfl

@[simp]
theorem scale_negate (number : Decimal) : number.negate.scale = number.scale := rfl

/-- The integer that this number equals, if it equals one. -/
def toInteger? (number : Decimal) : Option Int :=
  if number.mantissa % powerOfTen number.scale = 0 then
    some (number.mantissa / powerOfTen number.scale)
  else none

/-- Compares numeric values: both mantissas are brought to the common power of ten. -/
def order (left right : Decimal) : Ordering :=
  -- Integers are compared, so nothing is rounded.
  compare (left.mantissa * powerOfTen right.scale) (right.mantissa * powerOfTen left.scale)

/-- Drops trailing zeros of a mantissa, one place each, until none is left or no place is left. -/
def trimParts : Int → Nat → Int × Nat
  | mantissa, 0 => (mantissa, 0)
  | mantissa, places + 1 =>
    if mantissa % 10 = 0 then trimParts (mantissa / 10) places else (mantissa, places + 1)

/-- Trimming does not enlarge the mantissa. -/
theorem trimParts_natAbs_le (mantissa : Int) (places : Nat) :
    (trimParts mantissa places).1.natAbs ≤ mantissa.natAbs := by
  induction places generalizing mantissa with
  | zero => exact Nat.le_refl _
  | succ places ih =>
    rw [trimParts]
    split
    · have := ih (mantissa / 10)
      omega
    · exact Nat.le_refl _

/-- It only takes places away. -/
theorem trimParts_scale_le (mantissa : Int) (places : Nat) :
    (trimParts mantissa places).2 ≤ places := by
  induction places generalizing mantissa with
  | zero => exact Nat.le_refl _
  | succ places ih =>
    rw [trimParts]
    split
    · have := ih (mantissa / 10)
      omega
    · exact Nat.le_refl _

/-- The same number without trailing fractional zeros; every zero becomes plain 0. -/
def trim (number : Decimal) : Decimal :=
  ⟨(trimParts number.mantissa number.scale).1, (trimParts number.mantissa number.scale).2, false,
    Nat.lt_of_le_of_lt (trimParts_natAbs_le _ _) number.mantissa_lt,
    Nat.le_trans (trimParts_scale_le _ _) number.scale_le, nofun⟩

@[simp]
theorem isNegativeZero_trim (number : Decimal) : number.trim.isNegativeZero = false := rfl

theorem trimParts_zero (places : Nat) : trimParts 0 places = (0, 0) := by
  induction places with
  | zero => rfl
  | succ places ih => exact ih

theorem trim_of_isZero {number : Decimal} (isZero : number.isZero) : number.trim = zero := by
  have empty : number.mantissa = 0 := by simpa [Decimal.isZero] using isZero
  simp only [trim, empty, trimParts_zero, zero]

/-- Digits of a count, padded with zeros on the left to at least `width` of them. -/
def paddedDigits (width count : Nat) : List Char :=
  let digits := Nat.toDigits 10 count
  List.replicate (width - digits.length) '0' ++ digits

/-- The digits around the point: at least one before it and exactly `scale` behind it. -/
def plainDigits (magnitude scale : Nat) : List Char :=
  let digits := paddedDigits (scale + 1) magnitude
  -- Padding leaves at least one digit in front of the places.
  let whole := digits.take (digits.length - scale)
  if scale = 0 then whole else whole ++ '.' :: digits.drop (digits.length - scale)

/-- Plain notation with every place and the sign kept, such as `-0.050`. -/
def toPlain (number : Decimal) : String :=
  let digits := plainDigits number.mantissa.natAbs number.scale
  String.ofList (if number.isSignNegative then '-' :: digits else digits)

instance : ToString Decimal := ⟨toPlain⟩

end Decimal

end Rulebook

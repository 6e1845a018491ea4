/-!
# Dates

Dates of the proleptic Gregorian calendar with astronomical years. A date is also the number of a
day, counted from 1 January of year 1, and shifting a date moves that number. Both views are kept
total and exact; a day number whose year is not covered has no date.
-/
namespace Rulebook

namespace Calendar

/-- Every fourth year is a leap year, of the centuries only every fourth. -/
def isLeap (year : Int) : Bool :=
  year % 4 == 0 && (year % 100 != 0 || year % 400 == 0)

/-- The lengths of the months in their order. -/
def monthLengths (year : Int) : List Nat :=
  [31, if isLeap year then 29 else 28, 31, 30, 31, 30, 31, 31, 30, 31, 30, 31]

/-- The length of a month, which counts from 1; there is no month 0 or 13. -/
def daysInMonth (year : Int) (month : Nat) : Nat :=
  match month with
  | 0 => 0
  | before + 1 => (monthLengths year).getD before 0

def firstYear : Int := -262143

def lastYear : Int := 262142

/-- Whether year, month and day name a day of the covered years. -/
def IsDate (year : Int) (month day : Nat) : Prop :=
  firstYear ≤ year ∧ year ≤ lastYear ∧ 1 ≤ day ∧ day ≤ daysInMonth year month

instance (year : Int) (month day : Nat) : Decidable (IsDate year month day) :=
  inferInstanceAs (Decidable (_ ∧ _))

/-- The number of days from 1 January of year 1 to 1 January of the given year. -/
def daysBeforeYear (year : Int) : Int :=
  let past := year - 1
  365 * past + past / 4 - past / 100 + past / 400

/-- The number of days of a year before the first of a month. -/
def daysBeforeMonth (year : Int) (month : Nat) : Nat :=
  ((monthLengths year).take (month - 1)).foldr (· + ·) 0

/-- The year that holds the day at an offset from 1 January of year 1. The mean length of a year
puts the guess at most one year off. -/
def yearOfOffset (offset : Int) : Int :=
  let guess := offset * 400 / 146097 + 1
  if offset < daysBeforeYear guess then guess - 1
  else if daysBeforeYear (guess + 1) ≤ offset then guess + 1
  else guess

/-- Splits an offset into a year, with months of the given lengths, into month and day. -/
def splitOffset : (lengths : List Nat) → (month offset : Nat) → Nat × Nat
  | [], month, offset => (month, offset + 1)
  | length :: lengths, month, offset =>
    if offset < length then (month, offset + 1)
    else splitOffset lengths (month + 1) (offset - length)

end Calendar

/-- A day of the covered years. -/
structure Date where
  year : Int
  month : Nat
  day : Nat
  valid : Calendar.IsDate year month day
deriving DecidableEq

namespace Date

/-- The date with this year, month and day, if there is one. -/
def ofParts? (year : Int) (month day : Nat) : Option Date :=
  if valid : Calendar.IsDate year month day then some ⟨year, month, day, valid⟩ else none

/-- The number of days since 1 January of year 1. -/
def offset (date : Date) : Int :=
  Calendar.daysBeforeYear date.year + Calendar.daysBeforeMonth date.year date.month + date.day - 1

/-- The date at a number of days since 1 January of year 1, if its year is covered. -/
def ofOffset? (offset : Int) : Option Date :=
  -- The offset within the year is never negative.
  let year := Calendar.yearOfOffset offset
  let (month, day) := Calendar.splitOffset (Calendar.monthLengths year) 1
    (offset - Calendar.daysBeforeYear year).toNat
  ofParts? year month day

/-- The date so many days later, if its year is covered. -/
def later? (date : Date) (days : Nat) : Option Date :=
  ofOffset? (date.offset + days)

/-- The date so many days earlier, if its year is covered. -/
def earlier? (date : Date) (days : Nat) : Option Date :=
  ofOffset? (date.offset - days)

/-- The date a number of days later, or earlier for a negative number. -/
def shift? (date : Date) (days : Int) : Option Date :=
  if 0 ≤ days then date.later? days.natAbs else date.earlier? days.natAbs

/-- The order of days. -/
def order (left right : Date) : Ordering :=
  (compare left.year right.year).then
    ((compare left.month right.month).then (compare left.day right.day))

end Date

end Rulebook

import Rulebook.Calendar.Date

/-!
# Times of day and date-times

A time of day counts hours, minutes, seconds and nanoseconds. A leap second is written as the
second before it with a thousand million nanoseconds or more.
-/
namespace Rulebook

structure Time where
  hour : Nat
  minute : Nat
  second : Nat
  nanosecond : Nat
  valid : hour < 24 ∧ minute < 60 ∧ second < 60 ∧ nanosecond < 2_000_000_000 := by decide
deriving DecidableEq

namespace Time

def midnight : Time := { hour := 0, minute := 0, second := 0, nanosecond := 0 }

/-- The time with these parts, if there is one. -/
def ofParts? (hour minute second nanosecond : Nat) : Option Time :=
  if valid : hour < 24 ∧ minute < 60 ∧ second < 60 ∧ nanosecond < 2_000_000_000 then
    some ⟨hour, minute, second, nanosecond, valid⟩
  else none

def secondOfDay (time : Time) : Nat :=
  (time.hour * 60 + time.minute) * 60 + time.second

def order (left right : Time) : Ordering :=
  (compare left.secondOfDay right.secondOfDay).then (compare left.nanosecond right.nanosecond)

/-- The second that a clock shows, which is 60 during a leap second at the end of a minute. -/
def shownSecond (time : Time) : Nat :=
  time.second + time.nanosecond / 1_000_000_000

end Time

structure DateTime where
  date : Date
  time : Time
deriving DecidableEq

namespace DateTime

def ofDate (date : Date) : DateTime := ⟨date, .midnight⟩

def order (left right : DateTime) : Ordering :=
  (left.date.order right.date).then (left.time.order right.time)

/-- The same time of day a number of days later. -/
def shiftDays? (moment : DateTime) (days : Int) : Option DateTime :=
  (moment.date.shift? days).map fun date => { moment with date }

end DateTime

end Rulebook

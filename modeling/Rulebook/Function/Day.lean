import Rulebook.Calendar.Reader
import Rulebook.Function.Argument

/-!
# Functions of dates
-/
namespace Rulebook.Builtin

open Argument

def today : Function := fun arguments clock => do
  expectCount 0 0 "0" arguments
  return .date clock.today

def now : Function := fun arguments clock => do
  expectCount 0 0 "0" arguments
  return .dateTime clock.now

/-- Passes on the result of reading a date. -/
def reading {α : Type} : Except DateTextError α → Except FunctionError α
  | .ok result => .ok result
  | .error error => .error (.failed error.message)

/-- The date of a date-time, or the one that a text denotes. -/
def date : Function := fun arguments _ => do
  expectCount 1 1 "1" arguments
  match get arguments 0 with
  | .null => return .null
  | .date day => return .date day
  | .dateTime moment => return .date moment.date
  | .text characters => return .date (← reading (Date.ofText characters))
  | other => throw (mismatch 0 "a date string" other)

/-- The midnight that begins a date, or the date-time that a text denotes. -/
def dateTime : Function := fun arguments _ => do
  expectCount 1 1 "1" arguments
  match get arguments 0 with
  | .null => return .null
  | .dateTime moment => return .dateTime moment
  | .date day => return .dateTime (.ofDate day)
  | .text characters => return .dateTime (← reading (DateTime.ofText characters))
  | other => throw (mismatch 0 "a datetime string" other)

/-- A whole number of days within 64 bits. -/
def wholeDays? (amount : Decimal) : Option Int :=
  amount.toInteger?.filter fun days => -0x80000000_00000000 ≤ days ∧ days < 0x80000000_00000000

/-- A shifted day, unless the calendar does not cover it. -/
def covered {α : Type} : Option α → Except FunctionError α
  | some result => .ok result
  | none => .error (.failed "date out of range")

def plusDays : Function := fun arguments _ => do
  expectCount 2 2 "2" arguments
  match ← number? arguments 1 with
  | none => return .null
  | some amount =>
    match wholeDays? amount with
    -- Neither a fraction nor a number beyond 64 bits counts days.
    | none => throw (mismatch 1 "an integer" (get arguments 1))
    | some days =>
      match get arguments 0 with
      | .null => return .null
      | .date day => return .date (← covered (day.shift? days))
      | .dateTime moment => return .dateTime (← covered (moment.shiftDays? days))
      | other => throw (mismatch 0 "a date" other)

/-- A year as a number, as it is. -/
def yearNumber (date : Date) : Value :=
  .number (.ofInteger date.year (by
    have valid := date.valid
    simp only [Calendar.IsDate, Calendar.firstYear, Calendar.lastYear] at valid
    omega))

def year : Function := fun arguments _ => do
  expectCount 1 1 "1" arguments
  match get arguments 0 with
  | .null => return .null
  | .date day => return yearNumber day
  | .dateTime moment => return yearNumber moment.date
  | other => throw (mismatch 0 "a date" other)

end Rulebook.Builtin

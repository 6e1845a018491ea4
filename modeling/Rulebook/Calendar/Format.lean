import Rulebook.Calendar.DateTime

/-!
# Written dates

A date is written as year, month and day with dashes. A year of four digits stands alone; any
other has a sign and at least four digits. A time of day has two digits for each part.
-/
namespace Rulebook

/-- A count with zeros in front up to the given width. -/
def padCount (width count : Nat) : String :=
  let digits := Nat.toDigits 10 count
  String.ofList (List.replicate (width - digits.length) '0' ++ digits)

namespace Calendar

def yearText (year : Int) : String :=
  if 0 ≤ year ∧ year ≤ 9999 then padCount 4 year.natAbs
  else (if year < 0 then "-" else "+") ++ padCount 4 year.natAbs

end Calendar

/-- Such as `2024-02-29`. -/
def Date.text (date : Date) : String :=
  Calendar.yearText date.year ++ "-" ++ padCount 2 date.month ++ "-" ++ padCount 2 date.day

/-- Such as `13:05:09`, without parts of a second. -/
def Time.text (time : Time) : String :=
  padCount 2 time.hour ++ ":" ++ padCount 2 time.minute ++ ":" ++ padCount 2 time.shownSecond

/-- The parts of a second in groups of three digits, or nothing when there are none. -/
def Time.fractionText (time : Time) : String :=
  let nanosecond := time.nanosecond % 1_000_000_000
  if nanosecond = 0 then ""
  else if nanosecond % 1_000_000 = 0 then "." ++ padCount 3 (nanosecond / 1_000_000)
  else if nanosecond % 1000 = 0 then "." ++ padCount 6 (nanosecond / 1000)
  else "." ++ padCount 9 nanosecond

/-- Date and time of day with a separator between them. -/
def DateTime.text (separator : String) (moment : DateTime) : String :=
  moment.date.text ++ separator ++ moment.time.text

/-- The whole moment, parts of a second included. -/
def DateTime.fullText (moment : DateTime) : String :=
  moment.text " " ++ moment.time.fractionText

end Rulebook

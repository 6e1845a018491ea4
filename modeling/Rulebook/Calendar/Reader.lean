import Rulebook.Calendar.DateTime
import Rulebook.Text.Blank

/-!
# Reading dates

A date or date-time is read field by field. Blanks may stand before a field, a year with a sign
may have any number of digits, every other field has at most its usual width. The first fault in
reading order is reported; whether the fields name a day is looked at last.
-/
namespace Rulebook

/-- Why a text is no date. -/
inductive DateTextError where
  | invalid
  | outOfRange
  | tooShort
  | trailing
deriving DecidableEq, Repr

def DateTextError.message : DateTextError → String
  | .invalid => "input contains invalid characters"
  | .outOfRange => "input is out of range"
  | .tooShort => "premature end of input"
  | .trailing => "trailing input"

namespace Calendar

/-- A step of reading: a result and the characters after it. -/
abbrev FieldReader (α : Type) := List Char → Except DateTextError (α × List Char)

/-- The count that digits denote. -/
def countOfDigits (digits : List Char) : Nat :=
  digits.foldl (fun total digit => total * 10 + (digit.toNat - '0'.toNat)) 0

/-- Reads at most `width` digits, and at least one. -/
def readDigits (width : Nat) : FieldReader Nat := fun characters =>
  let digits := (characters.takeWhile Char.isDigit).take width
  if characters.isEmpty then .error .tooShort
  else if digits.isEmpty then .error .invalid
  else .ok (countOfDigits digits, characters.drop digits.length)

/-- Reads a count of at most two digits within bounds, after blanks. -/
def readField (least greatest : Nat) : FieldReader Nat := fun characters => do
  let (count, rest) ← readDigits 2 (trimFront characters)
  if least ≤ count ∧ count ≤ greatest then return (count, rest) else throw .outOfRange

/-- Refuses a year that needs more than 32 bits. -/
def boundYear (year : Int) (rest : List Char) : Except DateTextError (Int × List Char) :=
  if -0x80000000 ≤ year ∧ year < 0x80000000 then .ok (year, rest) else .error .outOfRange

/-- Reads a year, after blanks: any digits after a sign, at most four without one. -/
def readYear : FieldReader Int := fun characters =>
  match trimFront characters with
  | '-' :: digits => do
    let (count, rest) ← readDigits digits.length digits
    boundYear (-count) rest
  | '+' :: digits => do
    let (count, rest) ← readDigits digits.length digits
    boundYear count rest
  | digits => do
    let (count, rest) ← readDigits 4 digits
    return (count, rest)

/-- Passes over one fixed character. -/
def readMark (mark : Char) (characters : List Char) : Except DateTextError (List Char) :=
  match characters with
  | [] => .error .tooShort
  | character :: rest => if character = mark then .ok rest else .error .invalid

/-- The parts of a date as read, before it is known that they name a day. -/
structure DateFields where
  year : Int
  month : Nat
  day : Nat

def DateFields.toDate (fields : DateFields) : Except DateTextError Date :=
  match Date.ofParts? fields.year fields.month fields.day with
  | some date => .ok date
  | none => .error .outOfRange

def readDate : FieldReader DateFields := fun characters => do
  let (year, rest) ← readYear characters
  let rest ← readMark '-' rest
  let (month, rest) ← readField 1 12 rest
  let rest ← readMark '-' rest
  let (day, rest) ← readField 1 31 rest
  return (⟨year, month, day⟩, rest)

/-- The time of day of three fields; the sixtieth second is a leap second. -/
def timeOfFields (hour minute second : Nat) : Except DateTextError Time :=
  let time := if second = 60 then Time.ofParts? hour minute 59 1_000_000_000
    else Time.ofParts? hour minute second 0
  match time with
  | some time => .ok time
  | none => .error .outOfRange

def readTime : FieldReader Time := fun characters => do
  let (hour, rest) ← readField 0 23 characters
  let rest ← readMark ':' rest
  let (minute, rest) ← readField 0 59 rest
  let rest ← readMark ':' rest
  let (second, rest) ← readField 0 60 rest
  return (← timeOfFields hour minute second, rest)

/-- Nothing may follow the last field. -/
def readEnd (characters : List Char) : Except DateTextError Unit :=
  if characters.isEmpty then .ok () else .error .trailing

/-- Reads date and time of day with what stands between them passed over by `separator`. -/
def readDateTime (separator : List Char → Except DateTextError (List Char))
    (characters : List Char) : Except DateTextError DateTime := do
  let (fields, rest) ← readDate characters
  let rest ← separator rest
  let (time, rest) ← readTime rest
  readEnd rest
  -- A day that does not exist is noticed only after the whole text was read.
  return ⟨← fields.toDate, time⟩

end Calendar

/-- Reads a date such as `2024-02-29`. -/
def Date.ofText (text : String) : Except DateTextError Date := do
  let (fields, rest) ← Calendar.readDate text.toList
  Calendar.readEnd rest
  fields.toDate

/-- Reads a date-time such as `2024-02-29T13:05:09`, or with blanks, or nothing, in place of
the letter; the fault of the second form is the one reported. -/
def DateTime.ofText (text : String) : Except DateTextError DateTime :=
  match Calendar.readDateTime (Calendar.readMark 'T') text.toList with
  | .ok moment => .ok moment
  | .error _ => Calendar.readDateTime (fun rest => .ok (trimFront rest)) text.toList

end Rulebook

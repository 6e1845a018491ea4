import Mathlib.Algebra.Group.Nat.Defs
import Mathlib.Data.List.Basic
import Mathlib.Data.List.GetD
import Rulebook.Calendar.Format

/-!
# Written dates can be told apart

No two dates are written alike. Neither are two date-times, as long as a leap second stands only
where a minute ends: elsewhere it would be written like the second behind it.
-/
namespace Rulebook

theorem toList_padCount (width count : Nat) : (padCount width count).toList =
    List.replicate (width - (Nat.toDigits 10 count).length) '0' ++ Nat.toDigits 10 count := by
  simp [padCount]

theorem ofDigitChars_padCount (width count : Nat) :
    Nat.ofDigitChars 10 (padCount width count).toList 0 = count := by
  rw [toList_padCount, Nat.ofDigitChars_append, Nat.ofDigitChars_replicate_zero, Nat.mul_zero,
    Nat.ofDigitChars_ten_toDigits]

/-- Padding does not hide a count. -/
theorem padCount_injective {width left right : Nat}
    (equal : (padCount width left).toList = (padCount width right).toList) : left = right := by
  rw [← ofDigitChars_padCount width left, equal, ofDigitChars_padCount]

/-- A count that fits is as wide as asked for. -/
theorem length_padCount {width count : Nat} (positive : 0 < width) (fits : count < 10 ^ width) :
    (padCount width count).toList.length = width := by
  have short := (Nat.length_toDigits_le_iff (by decide) positive).mpr fits
  rw [toList_padCount, List.length_append, List.length_replicate]
  omega

theorem length_padCount_le {width limit count : Nat} (positive : 0 < limit) (wide : width ≤ limit)
    (fits : count < 10 ^ limit) : (padCount width count).toList.length ≤ limit := by
  have short := (Nat.length_toDigits_le_iff (by decide) positive).mpr fits
  rw [toList_padCount, List.length_append, List.length_replicate]
  omega

theorem isDigit_of_mem_padCount {width count : Nat} {character : Char}
    (member : character ∈ (padCount width count).toList) : character.isDigit = true := by
  rw [toList_padCount, List.mem_append] at member
  rcases member with padding | digit
  · rw [List.eq_of_mem_replicate padding]
    rfl
  · exact Nat.isDigit_of_mem_toDigits (by decide) (by decide) digit

namespace Calendar

theorem monthLengths_bounds {year : Int} {length : Nat} (member : length ∈ monthLengths year) :
    1 ≤ length ∧ length ≤ 31 := by
  have every : ∀ length ∈ monthLengths year, 1 ≤ length ∧ length ≤ 31 := by
    simp only [monthLengths, List.mem_cons]
    cases isLeap year <;> simp
  exact every length member

theorem daysInMonth_eq_getElem {year : Int} {before : Nat} (within : before < 12) :
    daysInMonth year (before + 1) = (monthLengths year)[before] :=
  List.getD_eq_getElem _ _ within

/-- There are days in the months from 1 to 12. -/
theorem daysInMonth_pos_iff {year : Int} {month : Nat} :
    0 < daysInMonth year month ↔ 1 ≤ month ∧ month ≤ 12 := by
  cases month with
  | zero => simp [daysInMonth]
  | succ before =>
    by_cases within : before < 12
    · have bounds := monthLengths_bounds (List.getElem_mem (l := monthLengths year) within)
      rw [daysInMonth_eq_getElem within]
      omega
    · have none : daysInMonth year (before + 1) = 0 :=
        List.getD_eq_default _ _ (Nat.not_lt.mp within)
      rw [none]
      omega

theorem daysInMonth_le (year : Int) (month : Nat) : daysInMonth year month ≤ 31 := by
  by_cases none : daysInMonth year month = 0
  · omega
  · obtain ⟨first, last⟩ := daysInMonth_pos_iff.mp (Nat.pos_of_ne_zero none)
    obtain ⟨before, rfl⟩ : ∃ before, month = before + 1 := ⟨month - 1, by omega⟩
    rw [daysInMonth_eq_getElem last]
    exact (monthLengths_bounds (List.getElem_mem _)).2

theorem IsDate.one_le_month {year : Int} {month day : Nat} (valid : IsDate year month day) :
    1 ≤ month :=
  (daysInMonth_pos_iff.mp (Nat.le_trans valid.2.2.1 valid.2.2.2)).1

theorem IsDate.month_le {year : Int} {month day : Nat} (valid : IsDate year month day) :
    month ≤ 12 :=
  (daysInMonth_pos_iff.mp (Nat.le_trans valid.2.2.1 valid.2.2.2)).2

theorem IsDate.day_le {year : Int} {month day : Nat} (valid : IsDate year month day) : day ≤ 31 :=
  Nat.le_trans valid.2.2.2 (daysInMonth_le year month)

/-- The sign of a year that is not written with four digits alone. -/
def yearSign (year : Int) : List Char :=
  if 0 ≤ year ∧ year ≤ 9999 then [] else if year < 0 then ['-'] else ['+']

/-- A year is its sign and its digits. -/
theorem toList_yearText (year : Int) :
    (yearText year).toList = yearSign year ++ (padCount 4 year.natAbs).toList := by
  unfold yearText yearSign
  split
  · rfl
  · split <;> simp

theorem not_isDigit_of_mem_yearSign {year : Int} {character : Char}
    (member : character ∈ yearSign year) : character.isDigit = false := by
  unfold yearSign at member
  split at member
  · simp at member
  · split at member
    · rw [List.mem_singleton.mp member]
      rfl
    · rw [List.mem_singleton.mp member]
      rfl

theorem yearSign_eq_minus_iff (year : Int) : yearSign year = ['-'] ↔ year < 0 := by
  unfold yearSign
  split
  · simp only [List.nil_eq, reduceCtorEq, false_iff]
    omega
  · split <;> simp_all

theorem length_yearText_le {year : Int} (magnitude : year.natAbs < 10 ^ 6) :
    (yearText year).toList.length ≤ 7 := by
  have digits := length_padCount_le (by decide) (by decide : 4 ≤ 6) magnitude
  have sign : (yearSign year).length ≤ 1 := by
    unfold yearSign
    split
    · simp
    · split <;> simp
  rw [toList_yearText, List.length_append]
  omega

/-- Years are told by their texts. -/
theorem yearText_injective {left right : Int}
    (equal : (yearText left).toList = (yearText right).toList) : left = right := by
  -- The sign is what is no digit, so it can be cut off without knowing its length.
  have signOf (year : Int) :
      (yearText year).toList.filter (fun character => !character.isDigit) = yearSign year := by
    rw [toList_yearText, List.filter_append,
      List.filter_eq_self.mpr (fun character member => by
        simp [not_isDigit_of_mem_yearSign member]),
      List.filter_eq_nil_iff.mpr (fun character member => by
        simp [isDigit_of_mem_padCount member]), List.append_nil]
  have signs : yearSign left = yearSign right := by
    rw [← signOf left, equal, signOf]
  rw [toList_yearText, toList_yearText, signs] at equal
  have magnitudes := padCount_injective (List.append_cancel_left equal)
  -- The magnitudes are equal, so only the sides of zero are left.
  have sides : left < 0 ↔ right < 0 := by
    rw [← yearSign_eq_minus_iff, signs, yearSign_eq_minus_iff]
  omega

end Calendar

namespace Date

theorem toList_text (date : Date) : date.text.toList =
    (Calendar.yearText date.year).toList ++ '-' :: (padCount 2 date.month).toList
      ++ '-' :: (padCount 2 date.day).toList := by
  simp [text]

theorem text_injective {left right : Date} (equal : left.text = right.text) : left = right := by
  have monthWidth (date : Date) : (padCount 2 date.month).toList.length = 2 :=
    length_padCount (by decide) (Nat.lt_of_le_of_lt date.valid.month_le (by decide))
  have dayWidth (date : Date) : (padCount 2 date.day).toList.length = 2 :=
    length_padCount (by decide) (Nat.lt_of_le_of_lt date.valid.day_le (by decide))
  have characters := congrArg String.toList equal
  rw [toList_text, toList_text] at characters
  -- Month and day have two digits each, so the text can be cut from its end.
  obtain ⟨front, days⟩ := List.append_inj' characters (by simp [dayWidth])
  obtain ⟨years, months⟩ := List.append_inj' front (by simp [monthWidth])
  have sameYear := Calendar.yearText_injective years
  have sameMonth := padCount_injective (List.cons.inj months).2
  have sameDay := padCount_injective (List.cons.inj days).2
  cases left
  cases right
  simp_all

theorem length_text_le (date : Date) : date.text.toList.length ≤ 13 := by
  obtain ⟨early, late, _⟩ := date.valid
  unfold Calendar.firstYear at early
  unfold Calendar.lastYear at late
  have magnitude : date.year.natAbs < 10 ^ 6 := by omega
  have years := Calendar.length_yearText_le magnitude
  have months : (padCount 2 date.month).toList.length = 2 :=
    length_padCount (by decide) (Nat.lt_of_le_of_lt date.valid.month_le (by decide))
  have days : (padCount 2 date.day).toList.length = 2 :=
    length_padCount (by decide) (Nat.lt_of_le_of_lt date.valid.day_le (by decide))
  rw [toList_text]
  simp only [List.length_append, List.length_cons]
  omega

/-- No blank stands in a date, which is how a date-time is cut. -/
theorem blank_not_mem_text (date : Date) : ' ' ∉ date.text.toList := by
  intro member
  rw [toList_text, Calendar.toList_yearText] at member
  have noDigit : ' '.isDigit = false := rfl
  simp only [List.append_assoc, List.cons_append, List.mem_append, List.mem_cons] at member
  -- Everything that is written is a digit, a sign or a dash.
  rcases member with sign | year | dash | month | dash | day
  · unfold Calendar.yearSign at sign
    split at sign
    · simp at sign
    · split at sign <;> simp at sign
  · simp [isDigit_of_mem_padCount year] at noDigit
  · simp at dash
  · simp [isDigit_of_mem_padCount month] at noDigit
  · simp at dash
  · simp [isDigit_of_mem_padCount day] at noDigit

end Date

namespace Time

/-- A leap second stands where a minute ends. -/
def IsRegular (time : Time) : Prop :=
  time.nanosecond < 1_000_000_000 ∨ time.second = 59

theorem toList_text (time : Time) : time.text.toList =
    (padCount 2 time.hour).toList ++ ':' :: (padCount 2 time.minute).toList
      ++ ':' :: (padCount 2 time.shownSecond).toList := by
  simp [text]

theorem shownSecond_le (time : Time) : time.shownSecond ≤ 60 := by
  have seconds := time.valid.2.2.1
  have nanoseconds := time.valid.2.2.2
  unfold shownSecond
  omega

/-- A time has a fixed width. -/
theorem length_text (time : Time) : time.text.toList.length = 8 := by
  have hours : (padCount 2 time.hour).toList.length = 2 :=
    length_padCount (by decide) (Nat.lt_trans time.valid.1 (by decide))
  have minutes : (padCount 2 time.minute).toList.length = 2 :=
    length_padCount (by decide) (Nat.lt_trans time.valid.2.1 (by decide))
  have seconds : (padCount 2 time.shownSecond).toList.length = 2 :=
    length_padCount (by decide) (Nat.lt_of_le_of_lt time.shownSecond_le (by decide))
  simp [toList_text, hours, minutes, seconds]

/-- The written fraction is a count of three, six or nine digits, or nothing. -/
theorem fractionText_spec (time : Time) : ∃ places count,
    places ≤ 9 ∧ count < 10 ^ places ∧
      time.nanosecond % 1_000_000_000 = count * 10 ^ (9 - places) ∧
      time.fractionText.toList =
        if places = 0 then [] else '.' :: (padCount places count).toList := by
  unfold fractionText
  simp only
  split
  next none => exact ⟨0, 0, by omega, by omega, by omega, rfl⟩
  next =>
    have bound : time.nanosecond % 1_000_000_000 < 1_000_000_000 := Nat.mod_lt _ (by decide)
    split
    next => exact ⟨3, time.nanosecond % 1_000_000_000 / 1_000_000, by omega, by omega, by omega,
      by simp⟩
    next =>
      split
      next => exact ⟨6, time.nanosecond % 1_000_000_000 / 1000, by omega, by omega, by omega,
        by simp⟩
      next => exact ⟨9, time.nanosecond % 1_000_000_000, by omega, by omega, by omega, by simp⟩

/-- Fractions are told by their texts. -/
theorem fractionText_injective {left right : Time}
    (equal : left.fractionText.toList = right.fractionText.toList) :
    left.nanosecond % 1_000_000_000 = right.nanosecond % 1_000_000_000 := by
  obtain ⟨places, count, _, fits, value, written⟩ := fractionText_spec left
  obtain ⟨otherPlaces, otherCount, _, otherFits, otherValue, otherWritten⟩ :=
    fractionText_spec right
  have digits (places count : Nat) (positive : ¬ places = 0) (fits : count < 10 ^ places) :
      ('.' :: (padCount places count).toList).length = places + 1 := by
    rw [List.length_cons, length_padCount (Nat.pos_of_ne_zero positive) fits]
  rw [written, otherWritten] at equal
  rw [value, otherValue]
  by_cases none : places = 0
  · by_cases otherNone : otherPlaces = 0
    · subst none otherNone
      omega
    · simp [none, otherNone] at equal
  · by_cases otherNone : otherPlaces = 0
    · simp [none, otherNone] at equal
    · rw [if_neg none, if_neg otherNone] at equal
      -- The length of the fraction tells how many digits were written.
      have lengths := congrArg List.length equal
      rw [digits places count none fits, digits otherPlaces otherCount otherNone otherFits]
        at lengths
      obtain rfl : places = otherPlaces := by omega
      rw [padCount_injective (List.cons.inj equal).2]

theorem length_fractionText_le (time : Time) : time.fractionText.toList.length ≤ 10 := by
  obtain ⟨places, count, few, fits, _, written⟩ := fractionText_spec time
  rw [written]
  split
  · simp
  next some =>
    rw [List.length_cons, length_padCount (Nat.pos_of_ne_zero some) fits]
    omega

theorem text_injective {left right : Time} (equal : left.text.toList = right.text.toList) :
    left.hour = right.hour ∧ left.minute = right.minute ∧
      left.shownSecond = right.shownSecond := by
  have minuteWidth (time : Time) : (padCount 2 time.minute).toList.length = 2 :=
    length_padCount (by decide) (Nat.lt_trans time.valid.2.1 (by decide))
  have secondWidth (time : Time) : (padCount 2 time.shownSecond).toList.length = 2 :=
    length_padCount (by decide) (Nat.lt_of_le_of_lt time.shownSecond_le (by decide))
  rw [toList_text, toList_text] at equal
  obtain ⟨front, seconds⟩ := List.append_inj' equal (by simp [secondWidth])
  obtain ⟨hours, minutes⟩ := List.append_inj' front (by simp [minuteWidth])
  exact ⟨padCount_injective hours, padCount_injective (List.cons.inj minutes).2,
    padCount_injective (List.cons.inj seconds).2⟩

/-- Regular times are told by what is shown of them and by their fractions. -/
theorem eq_of_shown {left right : Time} (leftRegular : left.IsRegular)
    (rightRegular : right.IsRegular) (hours : left.hour = right.hour)
    (minutes : left.minute = right.minute) (seconds : left.shownSecond = right.shownSecond)
    (fractions : left.nanosecond % 1_000_000_000 = right.nanosecond % 1_000_000_000) :
    left = right := by
  obtain ⟨_, _, leftSecond, leftNanosecond⟩ := left.valid
  obtain ⟨_, _, rightSecond, rightNanosecond⟩ := right.valid
  unfold IsRegular at leftRegular rightRegular
  unfold shownSecond at seconds
  -- A leap second is shown as 60, which no other second of a regular time is.
  have sameSecond : left.second = right.second := by omega
  -- With the seconds the leap seconds are told apart, and the fraction tells the rest.
  have sameNanosecond : left.nanosecond = right.nanosecond := by omega
  cases left
  cases right
  simp_all

end Time

namespace DateTime

/-- A leap second stands where a minute ends. -/
def IsRegular (moment : DateTime) : Prop :=
  moment.time.IsRegular

theorem toList_fullText (moment : DateTime) : moment.fullText.toList =
    moment.date.text.toList ++ ' ' :: (moment.time.text.toList
      ++ moment.time.fractionText.toList) := by
  simp [fullText, text]

theorem length_fullText_le (moment : DateTime) : moment.fullText.toList.length ≤ 32 := by
  have dates := moment.date.length_text_le
  have times := moment.time.length_text
  have fractions := moment.time.length_fractionText_le
  simp only [toList_fullText, List.length_append, List.length_cons]
  omega

/-- Regular date-times are told by their texts. -/
theorem fullText_injective {left right : DateTime} (leftRegular : left.IsRegular)
    (rightRegular : right.IsRegular) (equal : left.fullText = right.fullText) : left = right := by
  have characters := congrArg String.toList equal
  rw [toList_fullText, toList_fullText] at characters
  -- The date ends where the first blank stands.
  have widths : left.date.text.toList.length = right.date.text.toList.length := by
    have blanks := congrArg (List.idxOf ' ') characters
    simpa only [List.idxOf_append_of_notMem (Date.blank_not_mem_text _), List.idxOf_cons_self,
      Nat.add_zero] using blanks
  obtain ⟨dates, rest⟩ := List.append_inj characters widths
  obtain ⟨times, fractions⟩ := List.append_inj (List.cons.inj rest).2 (by simp [Time.length_text])
  have sameDate := Date.text_injective (String.toList_inj.mp dates)
  obtain ⟨hours, minutes, seconds⟩ := Time.text_injective times
  have sameTime := Time.eq_of_shown leftRegular rightRegular hours minutes seconds
    (Time.fractionText_injective fractions)
  cases left
  cases right
  simp_all

end DateTime

end Rulebook

import Mathlib.Data.List.TakeWhile
import Rulebook.Function.Library
import Rulebook.Proofs.Calendar.Text
import Rulebook.Value.Text

/-!
# Written dates are read back

Each field is written with as many digits as its reader takes, or a mark stands behind it. So every
reader passes over just what was written, whatever comes next. A year outside of four digits has its
sign, which the reader of years takes for any number of digits. A date is its text; a date-time is
up to parts of a second, which its text does not show.
-/
namespace Rulebook

open Calendar

/-- Whatever comes behind these characters, the reader takes them and gives this result. -/
def Calendar.FieldReader.Takes {α : Type} (reader : FieldReader α) (characters : List Char)
    (result : α) : Prop :=
  ∀ rest, reader (characters ++ rest) = .ok (result, rest)

namespace Calendar

/-! ## Fields -/

theorem countOfDigits_eq (digits : List Char) :
    countOfDigits digits = Nat.ofDigitChars 10 digits 0 := by
  simp only [countOfDigits, Nat.ofDigitChars, Nat.mul_comm]

/-- Digits are taken if there is room for all of them and none follows that has room as well. -/
theorem readDigits_append {width : Nat} {digits rest : List Char}
    (inside : ∀ character ∈ digits, character.isDigit = true) (present : digits ≠ [])
    (short : digits.length ≤ width)
    (ends : digits.length = width ∨ rest.takeWhile Char.isDigit = []) :
    readDigits width (digits ++ rest) = .ok (Nat.ofDigitChars 10 digits 0, rest) := by
  have taken : ((digits ++ rest).takeWhile Char.isDigit).take width = digits := by
    rw [List.takeWhile_append_of_pos inside]
    -- Either the width ends the run of digits or the text behind it does.
    rcases ends with full | stops
    · exact List.take_left' full
    · rw [stops, List.append_nil, List.take_of_length_le short]
  simp only [readDigits, taken, List.drop_left, countOfDigits_eq]
  simp [present]

theorem trimFront_cons {character : Char} (solid : isBlank character = false) (rest : List Char) :
    trimFront (character :: rest) = character :: rest :=
  List.dropWhile_cons_of_neg (by simp [solid])

theorem not_isBlank_of_isDigit {character : Char} (digit : character.isDigit = true) :
    isBlank character = false := by
  obtain ⟨first, last⟩ := Char.isDigit_iff_toNat.mp digit
  exact not_isBlank_of_visible (Nat.le_trans (by decide) first) (Nat.le_trans last (by decide))

theorem exists_padCount_eq_cons (width count : Nat) :
    ∃ first others, (padCount width count).toList = first :: others ∧ first.isDigit = true := by
  cases written : (padCount width count).toList with
  | nil =>
    rw [toList_padCount, List.append_eq_nil_iff] at written
    exact absurd written.2 Nat.toDigits_ne_nil
  | cons first others =>
    exact ⟨first, others, rfl, isDigit_of_mem_padCount (written ▸ List.mem_cons_self)⟩

/-- Nothing is trimmed off digits. -/
theorem trimFront_padCount (width count : Nat) (rest : List Char) :
    trimFront ((padCount width count).toList ++ rest) = (padCount width count).toList ++ rest := by
  obtain ⟨first, others, written, digit⟩ := exists_padCount_eq_cons width count
  rw [written, List.cons_append, trimFront_cons (not_isBlank_of_isDigit digit)]

/-- A padded count of full width is taken whole. -/
theorem readDigits_takes {width count : Nat} (positive : 0 < width) (fits : count < 10 ^ width) :
    FieldReader.Takes (readDigits width) (padCount width count).toList count := by
  intro rest
  have length := length_padCount positive fits
  rw [readDigits_append (fun _ => isDigit_of_mem_padCount) (List.ne_nil_of_length_pos (by omega))
    length.le (.inl length), ofDigitChars_padCount]

/-- A field is read as the count that was written, if that is in its bounds. -/
theorem readField_takes {least greatest count : Nat} (lower : least ≤ count)
    (upper : count ≤ greatest) (fits : greatest < 100) :
    FieldReader.Takes (readField least greatest) (padCount 2 count).toList count := by
  intro rest
  rw [readField, trimFront_padCount, readDigits_takes (by decide) (by omega)]
  exact if_pos ⟨lower, upper⟩

/-- Any number of digits is taken behind a sign, up to the mark that follows them. -/
theorem readDigits_all (width count : Nat) (rest : List Char) :
    let digits := (padCount width count).toList ++ '-' :: rest
    readDigits digits.length digits = .ok (count, '-' :: rest) := by
  intro digits
  obtain ⟨first, others, written, _⟩ := exists_padCount_eq_cons width count
  rw [readDigits_append (fun _ => isDigit_of_mem_padCount) (by simp [written])
    (by simp [digits]) (.inr rfl), ofDigitChars_padCount]

/-- A year of four digits is read without a sign. -/
theorem readYear_unsigned {count : Nat} (short : count ≤ 9999) (rest : List Char) :
    readYear ((padCount 4 count).toList ++ rest) = .ok (count, rest) := by
  have read := readDigits_takes (by decide) (by omega : count < 10 ^ 4) rest
  obtain ⟨first, others, written, digit⟩ := exists_padCount_eq_cons 4 count
  rw [readYear, trimFront_padCount]
  rw [written, List.cons_append] at read ⊢
  split
  next sign => cases sign; cases digit
  next sign => cases sign; cases digit
  next =>
    rw [read]
    rfl

theorem readYear_minus {count : Nat} (short : count < 0x80000000) (rest : List Char) :
    readYear ('-' :: ((padCount 4 count).toList ++ '-' :: rest)) = .ok (-count, '-' :: rest) := by
  rw [readYear, trimFront_cons rfl]
  simp only [readDigits_all, bind, Except.bind]
  rw [boundYear, if_pos (by omega)]

theorem readYear_plus {count : Nat} (short : count < 0x80000000) (rest : List Char) :
    readYear ('+' :: ((padCount 4 count).toList ++ '-' :: rest)) = .ok (count, '-' :: rest) := by
  rw [readYear, trimFront_cons rfl]
  simp only [readDigits_all, bind, Except.bind]
  rw [boundYear, if_pos (by omega)]

/-- The sign of a year tells which of the three ways it is read. -/
theorem readYear_takes {year : Int} (early : firstYear ≤ year) (late : year ≤ lastYear)
    (rest : List Char) :
    readYear ((yearText year).toList ++ '-' :: rest) = .ok (year, '-' :: rest) := by
  unfold firstYear at early
  unfold lastYear at late
  rw [toList_yearText, yearSign]
  split
  next unsigned =>
    rw [List.nil_append, readYear_unsigned (by omega)]
    congr 2
    omega
  next =>
    split
    next negative =>
      rw [List.singleton_append, List.cons_append, readYear_minus (by omega)]
      congr 2
      omega
    next =>
      rw [List.singleton_append, List.cons_append, readYear_plus (by omega)]
      congr 2
      omega

/-! ## Dates and times of day -/

theorem readMark_takes (mark : Char) (rest : List Char) : readMark mark (mark :: rest) = .ok rest :=
  if_pos rfl

/-- Each field of a date is taken, and the marks between them. -/
theorem readDate_takes (date : Date) :
    FieldReader.Takes readDate date.text.toList ⟨date.year, date.month, date.day⟩ := by
  intro rest
  have month : FieldReader.Takes (readField 1 12) (padCount 2 date.month).toList date.month :=
    readField_takes date.valid.one_le_month date.valid.month_le (by decide)
  have day : FieldReader.Takes (readField 1 31) (padCount 2 date.day).toList date.day :=
    readField_takes date.valid.2.2.1 date.valid.day_le (by decide)
  -- The year is the only field of no fixed width; the mark behind it ends it.
  rw [Date.toList_text, readDate, List.append_assoc, List.append_assoc, List.cons_append,
    List.cons_append, readYear_takes date.valid.1 date.valid.2.1]
  simp only [bind, Except.bind, readMark_takes, month _, day _]
  rfl

theorem toDate_eq (date : Date) :
    DateFields.toDate ⟨date.year, date.month, date.day⟩ = .ok date := by
  simp only [DateFields.toDate, Date.ofParts?, dif_pos date.valid]

end Calendar

namespace Time

/-- The time that is read where this one is written: parts of a second are not written, and a leap
second counts as the second that it is written as. -/
def shown (time : Time) : Time where
  hour := time.hour
  minute := time.minute
  second := min time.shownSecond 59
  nanosecond := if time.shownSecond = 60 then 1_000_000_000 else 0
  valid := ⟨time.valid.1, time.valid.2.1, by omega, by split <;> decide⟩

theorem eq_iff {left right : Time} : left = right ↔ left.hour = right.hour ∧
    left.minute = right.minute ∧ left.second = right.second ∧
      left.nanosecond = right.nanosecond := by
  cases left
  cases right
  simp

/-- Times of whole seconds are the times that they show, and so are leap seconds at the end of a
minute. -/
theorem shown_eq_self_iff (time : Time) : time.shown = time ↔
    time.nanosecond = 0 ∨ time.second = 59 ∧ time.nanosecond = 1_000_000_000 := by
  have valid := time.valid
  simp only [eq_iff, shown, true_and]
  -- Second 60 is shown for leap seconds only.
  by_cases leap : time.shownSecond = 60
  · rw [if_pos leap]
    unfold shownSecond at leap ⊢
    omega
  · rw [if_neg leap]
    unfold shownSecond at leap ⊢
    omega

theorem ofParts?_eq (time : Time) :
    ofParts? time.hour time.minute time.second time.nanosecond = some time :=
  dif_pos time.valid

theorem timeOfFields_eq (time : Time) :
    timeOfFields time.hour time.minute time.shownSecond = .ok time.shown := by
  have written := time.shownSecond_le
  have parts := ofParts?_eq time.shown
  by_cases leap : time.shownSecond = 60
  -- Second 60 is read as the leap second of the one before.
  · have second : time.shown.second = 59 := by simp [shown, leap]
    have nanosecond : time.shown.nanosecond = 1_000_000_000 := if_pos leap
    rw [second, nanosecond] at parts
    change ofParts? time.hour time.minute 59 1_000_000_000 = _ at parts
    simp only [timeOfFields, leap, if_true, parts]
  · have second : time.shown.second = time.shownSecond := Nat.min_eq_left (by omega)
    have nanosecond : time.shown.nanosecond = 0 := if_neg leap
    rw [second, nanosecond] at parts
    change ofParts? time.hour time.minute time.shownSecond 0 = _ at parts
    simp only [timeOfFields, leap, if_false, parts]

/-- A time is taken field by field and read as the time it shows. -/
theorem readTime_takes (time : Time) :
    FieldReader.Takes readTime time.text.toList time.shown := by
  intro rest
  have hour : FieldReader.Takes (readField 0 23) (padCount 2 time.hour).toList time.hour :=
    readField_takes (by omega) (Nat.le_of_lt_succ time.valid.1) (by decide)
  have minute : FieldReader.Takes (readField 0 59) (padCount 2 time.minute).toList time.minute :=
    readField_takes (by omega) (Nat.le_of_lt_succ time.valid.2.1) (by decide)
  have second : FieldReader.Takes (readField 0 60) (padCount 2 time.shownSecond).toList
      time.shownSecond :=
    readField_takes (by omega) time.shownSecond_le (by decide)
  rw [toList_text, readTime, List.append_assoc, List.append_assoc, List.cons_append,
    List.cons_append]
  simp only [bind, Except.bind, hour _, readMark_takes, minute _, second _, timeOfFields_eq]
  rfl

/-- A written time of day starts with a digit. -/
theorem trimFront_text (time : Time) : trimFront time.text.toList = time.text.toList := by
  rw [toList_text, List.append_assoc, trimFront_padCount]

end Time

theorem Date.ofText_text (date : Date) : Date.ofText date.text = .ok date := by
  have read := readDate_takes date []
  rw [List.append_nil] at read
  simp only [Date.ofText, read, bind, Except.bind]
  exact toDate_eq date

namespace DateTime

/-- Date and time are read from both sides of what the separator passes over. -/
theorem readDateTime_text {separator : List Char → Except DateTextError (List Char)}
    {mark : String} (moment : DateTime)
    (passes : separator (mark.toList ++ moment.time.text.toList) = .ok moment.time.text.toList) :
    readDateTime separator (moment.text mark).toList = .ok ⟨moment.date, moment.time.shown⟩ := by
  have read := moment.time.readTime_takes []
  rw [List.append_nil] at read
  rw [DateTime.text, String.toList_append, String.toList_append, List.append_assoc, readDateTime,
    readDate_takes moment.date]
  simp only [bind, Except.bind, passes, read, toDate_eq]
  rfl

theorem ofText_text_letter (moment : DateTime) :
    ofText (moment.text "T") = .ok ⟨moment.date, moment.time.shown⟩ := by
  have passes : readMark 'T' ("T".toList ++ moment.time.text.toList) =
      .ok moment.time.text.toList := readMark_takes 'T' _
  rw [ofText, readDateTime_text moment passes]

/-- The first form fails on the blank, the second one passes over it. -/
theorem ofText_text_blank (moment : DateTime) :
    ofText (moment.text " ") = .ok ⟨moment.date, moment.time.shown⟩ := by
  have passes : trimFront (" ".toList ++ moment.time.text.toList) = moment.time.text.toList :=
    (List.dropWhile_cons_of_pos (by decide)).trans moment.time.trimFront_text
  -- Behind the date stands no letter.
  have failed : readDateTime (readMark 'T') (moment.text " ").toList = .error .invalid := by
    rw [DateTime.text, String.toList_append, String.toList_append, List.append_assoc, readDateTime,
      readDate_takes moment.date]
    rfl
  rw [ofText, failed]
  refine readDateTime_text moment ?_
  exact congrArg Except.ok passes

end DateTime

namespace Builtin

theorem date_text {text : String} {day : Date} (read : Date.ofText text = .ok day)
    (clock : Clock) : date [.text text] clock = .ok (.date day) := by
  change (do return Value.date (← reading (Date.ofText text))) = _
  rw [read]
  rfl

theorem dateTime_text {text : String} {moment : DateTime} (read : DateTime.ofText text = .ok moment)
    (clock : Clock) : dateTime [.text text] clock = .ok (.dateTime moment) := by
  change (do return Value.dateTime (← reading (DateTime.ofText text))) = _
  rw [read]
  rfl

/-- The functions `Date` and `DateTime` read what is written of a date and of a date-time. A date
comes back as it was. A date-time comes back from both of its written forms, with its date and with
the time that they show; this is the same date-time if it has no parts of a second. -/
theorem written_dates_are_read_back :
    FunctionRegistry.builtins.find? "Date" = some date ∧
    FunctionRegistry.builtins.find? "DateTime" = some dateTime ∧
    (∀ day clock, date [.text (Value.date day).render] clock = .ok (.date day)) ∧
    (∀ moment : DateTime, moment.time.nanosecond = 0 → ∀ clock,
      dateTime [.text (Value.dateTime moment).render] clock = .ok (.dateTime moment) ∧
      dateTime [.text (Value.dateTime moment).display] clock = .ok (.dateTime moment)) ∧
    ∀ moment : DateTime, ∃ time, ∀ clock,
      dateTime [.text (Value.dateTime moment).render] clock =
        .ok (.dateTime ⟨moment.date, time⟩) ∧
      dateTime [.text (Value.dateTime moment).display] clock =
        .ok (.dateTime ⟨moment.date, time⟩) ∧
      (time = moment.time ↔ moment.time.nanosecond = 0 ∨
        moment.time.second = 59 ∧ moment.time.nanosecond = 1_000_000_000) := by
  have dates (day : Date) (clock : Clock) :
      date [.text (Value.date day).render] clock = .ok (.date day) :=
    date_text (Date.ofText_text day) clock
  have rendered (moment : DateTime) (clock : Clock) :
      dateTime [.text (Value.dateTime moment).render] clock =
        .ok (.dateTime ⟨moment.date, moment.time.shown⟩) :=
    dateTime_text moment.ofText_text_blank clock
  have displayed (moment : DateTime) (clock : Clock) :
      dateTime [.text (Value.dateTime moment).display] clock =
        .ok (.dateTime ⟨moment.date, moment.time.shown⟩) :=
    dateTime_text moment.ofText_text_letter clock
  refine ⟨rfl, rfl, dates, fun moment whole clock => ?_, fun moment => ⟨moment.time.shown,
    fun clock => ⟨rendered moment clock, displayed moment clock, moment.time.shown_eq_self_iff⟩⟩⟩
  have same := moment.time.shown_eq_self_iff.mpr (.inl whole)
  rw [rendered, displayed, same]
  exact ⟨rfl, rfl⟩

/-- The years at both ends of the calendar have six digits and a sign. -/
theorem written_dates_are_read_back_of_ends :
    let first : Date := ⟨-262143, 1, 1, by decide⟩
    let last : DateTime := ⟨⟨262142, 12, 31, by decide⟩, ⟨23, 59, 59, 0, by decide⟩⟩
    let clock : Clock := ⟨.utc, some last, last⟩
    date [.text "-262143-01-01"] clock = .ok (.date first) ∧ last.time.nanosecond = 0 ∧
      dateTime [.text "+262142-12-31 23:59:59"] clock = .ok (.dateTime last) ∧
      dateTime [.text "+262142-12-31T23:59:59"] clock = .ok (.dateTime last) := by
  intro first last clock
  obtain ⟨_, _, dates, moments, _⟩ := written_dates_are_read_back
  have written : (Value.date first).render = "-262143-01-01" := by decide +kernel
  have rendered : (Value.dateTime last).render = "+262142-12-31 23:59:59" := by decide +kernel
  have displayed : (Value.dateTime last).display = "+262142-12-31T23:59:59" := by decide +kernel
  obtain ⟨readBlank, readLetter⟩ := moments last rfl clock
  exact ⟨written ▸ dates first clock, rfl, rendered ▸ readBlank, displayed ▸ readLetter⟩

end Builtin

end Rulebook

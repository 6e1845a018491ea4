import Mathlib.Algebra.Order.Ring.Int
import Mathlib.Logic.Function.Iterate
import Rulebook.Proofs.Calendar.Text

/-!
# The number of a day

The calendar goes on from day to day: through each month, from month to month and from year to year,
in both directions without end. Counting from 1 January of year 1 numbers its days with the
integers, each one once. So the day a number of days away is found by adding to the number, and it
is a date exactly if its year is covered.
-/
namespace Rulebook

namespace Calendar

theorem daysBeforeMonth_eq_sum (year : Int) (month : Nat) :
    daysBeforeMonth year month = ((monthLengths year).take (month - 1)).sum :=
  List.sum_eq_foldr.symm

/-- The months of a year follow each other without gaps. -/
theorem daysBeforeMonth_succ {year : Int} {month : Nat} (first : 1 ≤ month) (last : month ≤ 12) :
    daysBeforeMonth year (month + 1) = daysBeforeMonth year month + daysInMonth year month := by
  obtain ⟨before, rfl⟩ : ∃ before, month = before + 1 := ⟨month - 1, by omega⟩
  have within : before < (monthLengths year).length := last
  rw [daysBeforeMonth_eq_sum, daysBeforeMonth_eq_sum, daysInMonth_eq_getElem last,
    Nat.add_sub_cancel, Nat.add_sub_cancel, List.take_succ_eq_append_getElem within,
    List.sum_append, List.sum_singleton]
  rfl

theorem daysBeforeMonth_le (year : Int) (month : Nat) :
    daysBeforeMonth year month ≤ daysBeforeMonth year 13 := by
  have parts := congrArg List.sum (List.take_append_drop (month - 1) (monthLengths year))
  rw [List.sum_append, ← daysBeforeMonth_eq_sum] at parts
  have whole : daysBeforeMonth year 13 = (monthLengths year).sum := daysBeforeMonth_eq_sum year 13
  omega

/-- The twelve months make up the year. -/
theorem daysBeforeYear_succ (year : Int) :
    daysBeforeYear (year + 1) = daysBeforeYear year + daysBeforeMonth year 13 := by
  have length : (daysBeforeMonth year 13 : Int) = if isLeap year then 366 else 365 := by
    simp only [daysBeforeMonth, monthLengths]
    cases isLeap year <;> rfl
  rw [length]
  -- The quotients by 4, 100 and 400 change at the years that the rule for leap years names.
  simp only [daysBeforeYear, isLeap, Bool.and_eq_true, Bool.or_eq_true, beq_iff_eq, bne_iff_ne]
  split <;> omega

theorem daysBeforeYear_le {year later : Int} (upTo : year ≤ later) :
    daysBeforeYear year ≤ daysBeforeYear later := by
  refine monotone_int_of_le_succ (fun year => ?_) upTo
  rw [daysBeforeYear_succ]
  omega

/-- The year found for a day begins before it and ends behind it. -/
theorem yearOfOffset_spec (offset : Int) : daysBeforeYear (yearOfOffset offset) ≤ offset ∧
    offset < daysBeforeYear (yearOfOffset offset + 1) := by
  unfold yearOfOffset daysBeforeYear
  simp only
  -- The guess is too late, too early or right.
  split
  · omega
  · split <;> omega

/-- A day lies within only one year. -/
theorem yearOfOffset_eq {offset year : Int} (first : daysBeforeYear year ≤ offset)
    (last : offset < daysBeforeYear (year + 1)) : yearOfOffset offset = year := by
  obtain ⟨first', last'⟩ := yearOfOffset_spec offset
  rcases lt_trichotomy (yearOfOffset offset) year with before | same | after
  · have passed := daysBeforeYear_le (Int.add_one_le_of_lt before)
    omega
  · exact same
  · have ahead := daysBeforeYear_le (Int.add_one_le_of_lt after)
    omega

/-- An offset within a month that is reached after the months before it. -/
theorem splitOffset_eq {lengths : List Nat} {index rest : Nat} (within : index < lengths.length)
    (inMonth : rest < lengths[index]) (month : Nat) :
    splitOffset lengths month ((lengths.take index).sum + rest) = (month + index, rest + 1) := by
  induction lengths generalizing index month with
  | nil => cases within
  | cons length lengths ih =>
    cases index with
    | zero =>
      rw [List.getElem_cons_zero] at inMonth
      rw [List.take_zero, List.sum_nil, Nat.zero_add, splitOffset, if_pos inMonth]
      rfl
    | succ index =>
      -- The first month is passed, and the rest is counted from the second one.
      have later : length + (lengths.take index).sum + rest - length =
          (lengths.take index).sum + rest := by omega
      rw [List.take_succ_cons, List.sum_cons, splitOffset, if_neg (by omega), later,
        ih (Nat.lt_of_succ_lt_succ within) inMonth]
      simp only [Prod.mk.injEq, and_true]
      omega

/-- Every offset within the year is within a month. -/
theorem exists_month_of_lt {lengths : List Nat} {offset : Nat} (inYear : offset < lengths.sum) :
    ∃ index rest, ∃ within : index < lengths.length, rest < lengths[index] ∧
      offset = (lengths.take index).sum + rest := by
  induction lengths generalizing offset with
  | nil => simp at inYear
  | cons length lengths ih =>
    by_cases first : offset < length
    · exact ⟨0, offset, Nat.zero_lt_succ _, first, by simp⟩
    · rw [List.sum_cons] at inYear
      have inLater : offset - length < lengths.sum := by omega
      obtain ⟨index, rest, within, inMonth, reached⟩ := ih inLater
      refine ⟨index + 1, rest, Nat.succ_lt_succ within, inMonth, ?_⟩
      rw [List.take_succ_cons, List.sum_cons]
      omega

/-- A day of the calendar, in whatever year. -/
@[ext]
structure CivilDay where
  year : Int
  month : Nat
  day : Nat
  real : 1 ≤ day ∧ day ≤ daysInMonth year month

namespace CivilDay

/-- The day after: the next one of the month, else the first of the next month, else New Year. -/
def next (today : CivilDay) : CivilDay :=
  if within : today.day < daysInMonth today.year today.month then
    ⟨today.year, today.month, today.day + 1, Nat.succ_pos _, within⟩
  else if more : today.month < 12 then
    ⟨today.year, today.month + 1, 1, le_rfl, daysInMonth_pos_iff.mpr ⟨Nat.succ_pos _, more⟩⟩
  else ⟨today.year + 1, 1, 1, le_rfl, daysInMonth_pos_iff.mpr (by decide)⟩

/-- The days are numbered from 1 January of year 1, which has the number 0. -/
def number (day : CivilDay) : Int :=
  daysBeforeYear day.year + daysBeforeMonth day.year day.month + day.day - 1

theorem number_mk {year : Int} {month day : Nat} (real : 1 ≤ day ∧ day ≤ daysInMonth year month) :
    number ⟨year, month, day, real⟩ =
      daysBeforeYear year + daysBeforeMonth year month + day - 1 :=
  rfl

variable {start middle target : CivilDay} {days days' : Int}

theorem month_bounds (day : CivilDay) : 1 ≤ day.month ∧ day.month ≤ 12 :=
  daysInMonth_pos_iff.mp (day.real.1.trans day.real.2)

theorem daysBeforeMonth_month_succ (day : CivilDay) : daysBeforeMonth day.year (day.month + 1) =
    daysBeforeMonth day.year day.month + daysInMonth day.year day.month :=
  daysBeforeMonth_succ day.month_bounds.1 day.month_bounds.2

/-- The next day has the next number. -/
theorem number_next (day : CivilDay) : day.next.number = day.number + 1 := by
  have real := day.real
  have month := day.daysBeforeMonth_month_succ
  unfold next
  split
  next =>
    simp only [number]
    omega
  next monthEnds =>
    -- It is the last day of its month, so all days of the month are behind the next one.
    split
    next =>
      simp only [number, month]
      omega
    next yearEnds =>
      have december : day.month = 12 := Nat.le_antisymm day.month_bounds.2 (Nat.not_lt.mp yearEnds)
      have january (year : Int) : daysBeforeMonth year 1 = 0 := rfl
      rw [december] at month real monthEnds
      simp only [number, january, daysBeforeYear_succ, december, month]
      omega

/-- The numbers of the days of a year lie between its beginning and the next one. -/
theorem number_bounds (day : CivilDay) : daysBeforeYear day.year ≤ day.number ∧
    day.number < daysBeforeYear (day.year + 1) := by
  have real := day.real
  have month := day.daysBeforeMonth_month_succ
  have later := daysBeforeMonth_le day.year (day.month + 1)
  rw [daysBeforeYear_succ, number]
  omega

theorem yearOfOffset_number (day : CivilDay) : yearOfOffset day.number = day.year :=
  yearOfOffset_eq day.number_bounds.1 day.number_bounds.2

theorem splitOffset_number (day : CivilDay) : splitOffset (monthLengths day.year) 1
    (day.number - daysBeforeYear day.year).toNat = (day.month, day.day) := by
  obtain ⟨year, month, day, real⟩ := day
  obtain ⟨first, last⟩ := daysInMonth_pos_iff.mp (real.1.trans real.2)
  obtain ⟨before, rfl⟩ : ∃ before, month = before + 1 := ⟨month - 1, by omega⟩
  obtain ⟨rest, rfl⟩ : ∃ rest, day = rest + 1 := ⟨day - 1, by omega⟩
  -- The offset within the year is that of the months before and the days of this one.
  have offset : (number ⟨year, before + 1, rest + 1, real⟩ - daysBeforeYear year).toNat =
      ((monthLengths year).take before).sum + rest := by
    rw [number_mk, daysBeforeMonth_eq_sum, Nat.add_sub_cancel]
    omega
  rw [daysInMonth_eq_getElem last] at real
  rw [offset, splitOffset_eq last real.2, Nat.add_comm]

/-- No number is given twice. -/
theorem number_injective : Function.Injective number := by
  intro left right same
  have year : left.year = right.year := by
    rw [← yearOfOffset_number, same, yearOfOffset_number]
  have parts := splitOffset_number left
  rw [same, year, splitOffset_number] at parts
  obtain ⟨month, day⟩ := Prod.mk.inj parts
  exact CivilDay.ext year month.symm day.symm

/-- No number is left out. -/
theorem exists_number_eq (offset : Int) : ∃ day : CivilDay, day.number = offset := by
  obtain ⟨first, last⟩ := yearOfOffset_spec offset
  generalize yearOfOffset offset = year at first last
  have whole : daysBeforeMonth year 13 = (monthLengths year).sum := daysBeforeMonth_eq_sum year 13
  rw [daysBeforeYear_succ, whole] at last
  -- Within its year the offset lies in one of the months.
  have inYear : (offset - daysBeforeYear year).toNat < (monthLengths year).sum := by omega
  obtain ⟨index, rest, within, inMonth, reached⟩ := exists_month_of_lt inYear
  have real : rest + 1 ≤ daysInMonth year (index + 1) := by
    rw [daysInMonth_eq_getElem within]
    exact inMonth
  refine ⟨⟨year, index + 1, rest + 1, Nat.succ_pos rest, real⟩, ?_⟩
  rw [number_mk, daysBeforeMonth_eq_sum, Nat.add_sub_cancel]
  omega

theorem number_iterate_next (count : Nat) (day : CivilDay) :
    (next^[count] day).number = day.number + count := by
  induction count with
  | zero => simp
  | succ count ih =>
    rw [Function.iterate_succ_apply', number_next, ih]
    omega

/-- The target is so many days after the start, or before it for a negative number. -/
def IsShift (start : CivilDay) : (days : Int) → (target : CivilDay) → Prop
  | .ofNat days, target => next^[days] start = target
  | .negSucc days, target => next^[days + 1] target = start

/-- Going from day to day is adding to the number. -/
theorem isShift_iff : start.IsShift days target ↔ target.number = start.number + days := by
  cases days with
  | ofNat days =>
    rw [IsShift, ← number_injective.eq_iff, number_iterate_next, eq_comm]
    rfl
  | negSucc days =>
    rw [IsShift, ← number_injective.eq_iff, number_iterate_next]
    omega

theorem IsShift.unique (shift : start.IsShift days target) (shift' : start.IsShift days middle) :
    target = middle :=
  number_injective ((isShift_iff.mp shift).trans (isShift_iff.mp shift').symm)

theorem existsUnique_isShift (start : CivilDay) (days : Int) :
    ∃! target, start.IsShift days target := by
  obtain ⟨target, reached⟩ := exists_number_eq (start.number + days)
  have shift : start.IsShift days target := isShift_iff.mpr reached
  exact ⟨target, shift, fun _ shift' => shift'.unique shift⟩

theorem IsShift.add_iff (shift : start.IsShift days middle) :
    middle.IsShift days' target ↔ start.IsShift (days + days') target := by
  rw [isShift_iff] at shift
  rw [isShift_iff, isShift_iff, shift, Int.add_assoc]

theorem IsShift.symm (shift : start.IsShift days target) : target.IsShift (-days) start := by
  rw [isShift_iff] at shift ⊢
  omega

/-- The year of the day is among those that dates have. -/
def IsCovered (day : CivilDay) : Prop :=
  firstYear ≤ day.year ∧ day.year ≤ lastYear

instance (day : CivilDay) : Decidable day.IsCovered :=
  inferInstanceAs (Decidable (_ ∧ _))

end CivilDay

end Calendar

open Calendar

namespace Date

variable {date shifted : Date} {days : Int}

/-- The day of the calendar that a date is. -/
def civil (date : Date) : CivilDay :=
  ⟨date.year, date.month, date.day, date.valid.2.2⟩

theorem number_civil (date : Date) : date.civil.number = date.offset := rfl

/-- The numbers of dates are far from needing 64 bits. -/
theorem offset_bounds (date : Date) : -2 ^ 62 ≤ date.offset ∧ date.offset < 2 ^ 62 := by
  obtain ⟨first, last⟩ := date.civil.number_bounds
  have early : -262143 ≤ date.civil.year := date.valid.1
  have late : date.civil.year ≤ 262142 := date.valid.2.1
  rw [number_civil, daysBeforeYear] at first last
  omega

theorem exists_civil_eq_iff {day : CivilDay} : (∃ date, civil date = day) ↔ day.IsCovered := by
  constructor
  · rintro ⟨date, rfl⟩
    exact ⟨date.valid.1, date.valid.2.1⟩
  · rintro ⟨early, late⟩
    exact ⟨⟨day.year, day.month, day.day, early, late, day.real⟩, rfl⟩

/-- A date is found by its number, which is that of its day. -/
theorem ofOffset?_eq_some_iff {offset : Int} :
    ofOffset? offset = some date ↔ date.civil.number = offset := by
  obtain ⟨day, rfl⟩ := CivilDay.exists_number_eq offset
  rw [CivilDay.number_injective.eq_iff]
  simp only [ofOffset?, CivilDay.yearOfOffset_number, CivilDay.splitOffset_number, ofParts?]
  constructor
  · intro made
    split at made
    · cases made
      rfl
    · cases made
  · rintro rfl
    exact dif_pos date.valid

/-- A date is shifted to the day that is reached from day to day. -/
theorem shift?_eq_some_iff :
    date.shift? days = some shifted ↔ date.civil.IsShift days shifted.civil := by
  -- The direction is taken from the sign, so both add the signed count.
  have moved : date.shift? days = ofOffset? (date.offset + days) := by
    rw [shift?, later?, earlier?]
    split
    next forward => rw [Int.natAbs_of_nonneg forward]
    next back => rw [Int.ofNat_natAbs_of_nonpos (Int.le_of_not_le back), Int.sub_neg]
  rw [moved, ofOffset?_eq_some_iff, CivilDay.isShift_iff, number_civil date]

end Date

end Rulebook

import Rulebook.Function.Library
import Rulebook.Proofs.Calendar.DayNumber
import Rulebook.Proofs.Decimal.Order

/-!
# Moving dates by days

A call of `PlusDays` finds the day so many days away, wherever the calendar covers it, and a time of
day stays as it is. Two moves one after the other are one move by the sum, and a move is undone by
its opposite. Numbers of days beyond 64 bits are refused, but no such move could stay within the
years that are covered.
-/
namespace Rulebook

open Calendar

namespace Value

/-- The date of a date or a date-time. -/
def day? : Value → Option Date
  | date day => some day
  | dateTime moment => some moment.date
  | _ => none

/-- A date or a date-time with another date; its time of day stays. -/
def onDay (value : Value) (day : Date) : Value :=
  match value with
  | date _ => date day
  | dateTime moment => dateTime { moment with date := day }
  | other => other

/-- The value is a number, or an amount of money, equal to this integer. -/
def Counts (value : Value) (days : Int) : Prop :=
  ∃ amount, value.number? = some amount ∧ amount.toRat = days

variable {value : Value} {day : Date}

theorem day?_onDay (known : value.day? = some day) (shifted : Date) :
    (value.onDay shifted).day? = some shifted := by
  cases value <;> cases known <;> rfl

theorem onDay_onDay (value : Value) (day shifted : Date) :
    (value.onDay day).onDay shifted = value.onDay shifted := by
  cases value <;> rfl

theorem onDay_self (known : value.day? = some day) : value.onDay day = value := by
  cases value <;> cases known <;> rfl

end Value

namespace Builtin

/-- What becomes of a date or a date-time that is to be moved to a day: its date is that day
afterwards, provided that the calendar covers it. -/
structure MovesTo (target : CivilDay) (argument : Value) (outcome : Except FunctionError Value) :
    Prop where
  succeeds_iff : (∃ result, outcome = .ok result) ↔ target.IsCovered
  moved : ∀ result, outcome = .ok result →
    ∃ shifted : Date, shifted.civil = target ∧ result = argument.onDay shifted
  failure : ¬ target.IsCovered → outcome = .error (.failed "date out of range")

variable {argument count : Value} {day : Date} {days : Int}

theorem wholeDays?_eq_some_iff {amount : Decimal} :
    wholeDays? amount = some days ↔ amount.toRat = days ∧ -2 ^ 63 ≤ days ∧ days < 2 ^ 63 := by
  rw [wholeDays?, Option.filter_eq_some_iff, Decimal.toInteger?_eq_some_iff_toRat]
  simp

theorem number?_second {amount : Decimal} (number : count.number? = some amount) :
    Argument.number? [argument, count] 1 = .ok (some amount) := by
  cases count <;> cases number <;> rfl

/-- A whole number of days is taken to the date and from there to the value. -/
theorem plusDays_eq (known : argument.day? = some day) (counts : count.Counts days)
    (least : -2 ^ 63 ≤ days) (below : days < 2 ^ 63) (clock : Clock) :
    plusDays [argument, count] clock = (covered (day.shift? days)).map argument.onDay := by
  obtain ⟨amount, number, value⟩ := counts
  have whole := wholeDays?_eq_some_iff.mpr ⟨value, least, below⟩
  have arity : Argument.expectCount 2 2 "2" [argument, count] = .ok () := rfl
  simp only [plusDays, arity, number?_second number, whole, bind, Except.bind]
  cases argument <;> cases known
  case date =>
    change (do return Value.date (← covered (day.shift? days))) = _
    cases day.shift? days <;> rfl
  case dateTime moment =>
    change (do return Value.dateTime (← covered (moment.shiftDays? days))) = _
    rw [DateTime.shiftDays?]
    cases moment.date.shift? days <;> rfl

/-- A number of days beyond 64 bits is refused as if it were none. -/
theorem plusDays_eq_error (counts : count.Counts days) (beyond : ¬ (-2 ^ 63 ≤ days ∧ days < 2 ^ 63))
    (clock : Clock) : plusDays [argument, count] clock =
      .error (.argument 1 "an integer" count.typeName) := by
  obtain ⟨amount, number, value⟩ := counts
  have arity : Argument.expectCount 2 2 "2" [argument, count] = .ok () := rfl
  -- The integer that the number equals is unique, and it is out of bounds.
  have refused : wholeDays? amount = none := by
    rw [Option.eq_none_iff_forall_ne_some]
    intro whole found
    obtain ⟨value', fits⟩ := wholeDays?_eq_some_iff.mp found
    rw [value, Int.cast_inj] at value'
    exact beyond (value' ▸ fits)
  simp only [plusDays, arity, number?_second number, refused, bind, Except.bind]
  rfl

/-- The calls that succeed, for numbers of days of any size. -/
theorem plusDays_eq_ok_iff (known : argument.day? = some day) (counts : count.Counts days)
    {clock : Clock} {result : Value} : plusDays [argument, count] clock = .ok result ↔
      ∃ shifted : Date, day.civil.IsShift days shifted.civil ∧ argument.onDay shifted = result := by
  by_cases fits : -2 ^ 63 ≤ days ∧ days < 2 ^ 63
  · simp only [plusDays_eq known counts fits.1 fits.2, ← Date.shift?_eq_some_iff]
    cases day.shift? days <;> simp [covered, Except.map]
  · rw [plusDays_eq_error counts fits]
    -- No two dates are that far apart.
    refine iff_of_false nofun ?_
    rintro ⟨shifted, shift, -⟩
    have start := day.offset_bounds
    have finish := shifted.offset_bounds
    rw [CivilDay.isShift_iff, Date.number_civil, Date.number_civil] at shift
    omega

theorem movesTo_plusDays (known : argument.day? = some day) (counts : count.Counts days)
    (least : -2 ^ 63 ≤ days) (below : days < 2 ^ 63) {target : CivilDay}
    (shift : day.civil.IsShift days target) (clock : Clock) :
    MovesTo target argument (plusDays [argument, count] clock) where
  succeeds_iff := by
    rw [← Date.exists_civil_eq_iff]
    constructor
    · rintro ⟨result, moved⟩
      obtain ⟨shifted, shift', -⟩ := (plusDays_eq_ok_iff known counts).mp moved
      exact ⟨shifted, shift'.unique shift⟩
    · rintro ⟨shifted, rfl⟩
      exact ⟨_, (plusDays_eq_ok_iff known counts).mpr ⟨shifted, shift, rfl⟩⟩
  moved result moved := by
    obtain ⟨shifted, shift', same⟩ := (plusDays_eq_ok_iff known counts).mp moved
    exact ⟨shifted, shift'.unique shift, same.symm⟩
  failure beyond := by
    have missing : day.shift? days = none := by
      rw [Option.eq_none_iff_forall_ne_some]
      intro shifted found
      -- The date found would be the target, whose year is covered then.
      have reached := shift.unique (Date.shift?_eq_some_iff.mp found)
      exact beyond (Date.exists_civil_eq_iff.mp ⟨shifted, reached.symm⟩)
    rw [plusDays_eq known counts least below, missing]
    rfl

/-- `PlusDays` moves a date, or the date of a date-time, by days to the one day of the calendar that
is so far away: it succeeds exactly if the year of that day is covered, and keeps the time of day.
Where a first move succeeds, a second one is the move by the sum, and the opposite move gives back
what was moved. -/
theorem plusDays_moves_by_days :
    FunctionRegistry.builtins.find? "PlusDays" = some plusDays ∧
    (∀ (start : CivilDay) days, ∃! target, start.IsShift days target) ∧
    ∀ argument day, argument.day? = some day → ∀ clock,
      (∀ count days, count.Counts days → -2 ^ 63 ≤ days → days < 2 ^ 63 →
        ∀ target, day.civil.IsShift days target →
          MovesTo target argument (plusDays [argument, count] clock)) ∧
      (∀ first second both days days', first.Counts days → second.Counts days' →
        both.Counts (days + days') →
        ∀ middle, plusDays [argument, first] clock = .ok middle →
          ∀ result, plusDays [middle, second] clock = .ok result ↔
            plusDays [argument, both] clock = .ok result) ∧
      ∀ there back days, there.Counts days → back.Counts (-days) →
        ∀ moved, plusDays [argument, there] clock = .ok moved →
          plusDays [moved, back] clock = .ok argument := by
  refine ⟨rfl, CivilDay.existsUnique_isShift, fun argument day known clock => ⟨?_, ?_, ?_⟩⟩
  · intro count days counts least below target shift
    exact movesTo_plusDays known counts least below shift clock
  · intro first second both days days' counts counts' total middle moved result
    obtain ⟨shifted, shift, rfl⟩ := (plusDays_eq_ok_iff known counts).mp moved
    rw [plusDays_eq_ok_iff (Value.day?_onDay known shifted) counts',
      plusDays_eq_ok_iff known total]
    -- The second move starts at the day that the first one has reached.
    simp only [Value.onDay_onDay, shift.add_iff]
  · intro there back days counts counts' moved ran
    obtain ⟨shifted, shift, rfl⟩ := (plusDays_eq_ok_iff known counts).mp ran
    rw [plusDays_eq_ok_iff (Value.day?_onDay known shifted) counts']
    exact ⟨day, shift.symm, by rw [Value.onDay_onDay, Value.onDay_self known]⟩

/-- Across a leap day and back, a move by two days twice, and a move beyond the last date. -/
theorem plusDays_moves_by_days_of_leap_day :
    let time : Time := ⟨13, 5, 9, 0, by decide⟩
    let eve : Value := .dateTime ⟨⟨2024, 2, 28, by decide⟩, time⟩
    let first : Value := .dateTime ⟨⟨2024, 3, 1, by decide⟩, time⟩
    let third : Value := .dateTime ⟨⟨2024, 3, 3, by decide⟩, time⟩
    let last : Date := ⟨262142, 12, 31, by decide⟩
    let two : Value := .number { mantissa := 20, scale := 1 }
    let four : Value := .number { mantissa := 4, scale := 0 }
    let back : Value := .number { mantissa := -2, scale := 0 }
    let one : Value := .money { mantissa := 1, scale := 0 } "USD"
    let clock : Clock := ⟨.utc, none, .ofDate last⟩
    plusDays [eve, two] clock = .ok first ∧ plusDays [first, back] clock = .ok eve ∧
      plusDays [first, two] clock = .ok third ∧ plusDays [eve, four] clock = .ok third ∧
      plusDays [.date last, one] clock = .error (.failed "date out of range") := by
  intro time eve first third last two four back one clock
  obtain ⟨_, _, law⟩ := plusDays_moves_by_days
  have byTwo : two.Counts 2 := ⟨_, rfl, by decide +kernel⟩
  have byFour : four.Counts 4 := ⟨_, rfl, by decide +kernel⟩
  have byBack : back.Counts (-2) := ⟨_, rfl, by decide +kernel⟩
  have byOne : one.Counts 1 := ⟨_, rfl, by decide +kernel⟩
  have known : eve.day? = some ⟨2024, 2, 28, by decide⟩ := rfl
  have there : plusDays [eve, two] clock = .ok first :=
    (plusDays_eq_ok_iff known byTwo).mpr ⟨⟨2024, 3, 1, by decide⟩, rfl, rfl⟩
  have further : plusDays [eve, four] clock = .ok third :=
    (plusDays_eq_ok_iff known byFour).mpr ⟨⟨2024, 3, 3, by decide⟩, rfl, rfl⟩
  obtain ⟨_, total, undo⟩ := law eve _ known clock
  refine ⟨there, undo two back 2 byTwo byBack first there,
    (total two two four 2 2 byTwo byTwo byFour first there third).mpr further, further, ?_⟩
  have newYear : last.civil.IsShift 1 ⟨262143, 1, 1, by decide⟩ := rfl
  exact ((law (.date last) last rfl clock).1 one 1 byOne (by decide) (by decide) _ newYear).failure
    (by decide)

end Builtin

end Rulebook

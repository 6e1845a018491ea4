import Rulebook.Calendar.DateTime

/-!
# The order of dates and date-times

Dates are ordered by year, month and day, times by their seconds and nanoseconds, and date-times by
date and time. These are linear orders: only what is the same is ordered as equal.
-/
namespace Rulebook

instance : Std.TransCmp Date.order :=
  inferInstanceAs (Std.TransCmp
    (compareLex (compareOn Date.year) (compareLex (compareOn Date.month) (compareOn Date.day))))

instance : Std.TransCmp Time.order :=
  inferInstanceAs (Std.TransCmp
    (compareLex (compareOn Time.secondOfDay) (compareOn Time.nanosecond)))

instance : Ord Date := ⟨Date.order⟩

instance : Ord Time := ⟨Time.order⟩

instance : Std.TransOrd Date := inferInstanceAs (Std.TransCmp Date.order)

instance : Std.TransOrd Time := inferInstanceAs (Std.TransCmp Time.order)

instance : Std.TransCmp DateTime.order :=
  inferInstanceAs (Std.TransCmp (compareLex (compareOn DateTime.date) (compareOn DateTime.time)))

theorem Date.order_eq_iff {left right : Date} : left.order right = .eq ↔ left = right := by
  obtain ⟨year, month, day, valid⟩ := left
  obtain ⟨year', month', day', valid'⟩ := right
  -- The parts are compared one after the other, and none is left out.
  simp only [order, Ordering.then_eq_eq, Std.LawfulEqOrd.compare_eq_iff_eq, Date.mk.injEq]

/-- The second of a day has hours, minutes and seconds as its digits. -/
theorem Time.order_eq_iff {left right : Time} : left.order right = .eq ↔ left = right := by
  obtain ⟨hour, minute, second, nanosecond, valid⟩ := left
  obtain ⟨hour', minute', second', nanosecond', valid'⟩ := right
  simp only [order, secondOfDay, Ordering.then_eq_eq, Std.LawfulEqOrd.compare_eq_iff_eq,
    Time.mk.injEq]
  omega

theorem DateTime.order_eq_iff {left right : DateTime} :
    left.order right = .eq ↔ left = right := by
  obtain ⟨date, time⟩ := left
  obtain ⟨date', time'⟩ := right
  simp only [order, Ordering.then_eq_eq, Date.order_eq_iff, Time.order_eq_iff, DateTime.mk.injEq]

end Rulebook

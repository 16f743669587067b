/-
The order of moments.

A moment is earlier than another by its day, then by its second and then by the fraction of it;
a leap second comes after the second before it.  A day starts with its midnight, and between
its last whole second and the next day there are moments left.
-/
import FilterSql.Proofs.Calendar.DayNumber

namespace FilterSql

namespace Date

/-- A day of a number of days in a row, the first and the last of them included. -/
def IsWithin (date first last : Date) : Prop :=
  first.dayNumber ≤ date.dayNumber ∧ date.dayNumber ≤ last.dayNumber

theorem dayNumber_inj {first second : Date} :
    first.dayNumber = second.dayNumber ↔ first = second := by
  constructor
  · intro hnumber
    have hfirst := ofDayNumber?_dayNumber first
    rw [hnumber, ofDayNumber?_dayNumber] at hfirst
    exact (Option.some_inj.mp hfirst).symm
  · rintro rfl
    rfl

end Date

/-- A moment after the last whole second of its day. -/
def TimeOfDay.IsPastEnd (time : TimeOfDay) : Prop :=
  time.seconds = endOfDay.seconds ∧ time.nanos ≠ 0

theorem TimeOfDay.eq_of_seconds {first second : TimeOfDay}
    (hseconds : first.seconds = second.seconds) (hnanos : first.nanos = second.nanos) :
    first = second := by
  have hparts : first.hour = second.hour ∧ first.minute = second.minute ∧
      first.second = second.second := by
    obtain ⟨hhour, hminute, hsecond, -⟩ := first.isTime
    obtain ⟨hotherHour, hotherMinute, hotherSecond, -⟩ := second.isTime
    simp only [seconds] at hseconds
    omega
  obtain ⟨hhour, hminute, hsecond⟩ := hparts
  cases first
  cases second
  cases hhour
  cases hminute
  cases hsecond
  cases hnanos
  rfl

namespace Timestamp

/-- One moment is earlier than another. -/
def isBefore (first second : Timestamp) : Bool :=
  first.date.dayNumber < second.date.dayNumber ||
    first.date.dayNumber == second.date.dayNumber &&
      (first.time.seconds < second.time.seconds ||
        first.time.seconds == second.time.seconds && first.time.nanos < second.time.nanos)

/-- One moment is another or earlier. -/
def isUpTo (first second : Timestamp) : Bool :=
  first.isBefore second || first == second

theorem isUpTo_iff {first second : Timestamp} :
    first.isUpTo second = true ↔ first.date.dayNumber < second.date.dayNumber ∨
      first.date.dayNumber = second.date.dayNumber ∧
        (first.time.seconds < second.time.seconds ∨
          first.time.seconds = second.time.seconds ∧ first.time.nanos ≤ second.time.nanos) := by
  have hsame : first = second ↔ first.date.dayNumber = second.date.dayNumber ∧
      first.time.seconds = second.time.seconds ∧ first.time.nanos = second.time.nanos := by
    constructor
    · rintro rfl
      exact ⟨rfl, rfl, rfl⟩
    · rintro ⟨hday, hseconds, hnanos⟩
      have hdate := Date.dayNumber_inj.mp hday
      have htime := TimeOfDay.eq_of_seconds hseconds hnanos
      cases first
      cases second
      cases hdate
      cases htime
      rfl
  simp only [isUpTo, isBefore, Bool.or_eq_true, Bool.and_eq_true, decide_eq_true_eq, beq_iff_eq,
    hsame]
  omega

/-- From the midnight of a day on it is that day or a later one. -/
theorem midnight_isUpTo_iff {date : Date} {stamp : Timestamp} :
    (Timestamp.mk date .midnight).isUpTo stamp = true ↔
      date.dayNumber ≤ stamp.date.dayNumber := by
  have hseconds : TimeOfDay.midnight.seconds = 0 := rfl
  have hnanos : TimeOfDay.midnight.nanos = 0 := rfl
  rw [isUpTo_iff]
  dsimp only
  omega

/-- Up to the last whole second of a day it is that day or an earlier one, but on that day not
all of its moments are covered. -/
theorem isUpTo_endOfDay_iff {date : Date} {stamp : Timestamp} :
    stamp.isUpTo ⟨date, .endOfDay⟩ = true ↔
      stamp.date.dayNumber ≤ date.dayNumber ∧ ¬(stamp.date = date ∧ stamp.time.IsPastEnd) := by
  have hseconds := stamp.time.seconds_lt
  have hend : TimeOfDay.endOfDay.seconds = 86399 := rfl
  have hnanos : TimeOfDay.endOfDay.nanos = 0 := rfl
  rw [isUpTo_iff, ← Date.dayNumber_inj, TimeOfDay.IsPastEnd]
  dsimp only
  omega

end Timestamp

end FilterSql

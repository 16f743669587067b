/-
Dates and timestamps by their numbers.

Every day of the calendar has one number, and every time of day one number of microseconds
in it, so a date is found again by its number, and a timestamp by its microseconds when it
has no finer part.
-/
import Mathlib.Tactic.IntervalCases
import FilterSql.Calendar.Timestamp

namespace FilterSql

namespace Date

theorem daysBeforeYear_succ (year : Int) :
    daysBeforeYear (year + 1) = daysBeforeYear year + if isLeapYear year then 366 else 365 := by
  simp only [daysBeforeYear, isLeapYear, Bool.and_eq_true, Bool.or_eq_true, beq_iff_eq, bne_iff_ne]
  split <;> omega

theorem daysBeforeYear_le {year other : Int} (hle : year ≤ other) :
    daysBeforeYear year ≤ daysBeforeYear other := by
  simp only [daysBeforeYear]
  omega

/-- A year has 365.2425 days on average, and no first day is two days off. -/
theorem daysBeforeYear_bounds (year : Int) :
    146097 * year - 396 ≤ 400 * daysBeforeYear year ∧
      400 * daysBeforeYear year ≤ 146097 * year + 699 := by
  simp only [daysBeforeYear]
  omega

theorem yearOfDay_eq {year days : Int} (hlow : daysBeforeYear year ≤ days)
    (hhigh : days < daysBeforeYear (year + 1)) : yearOfDay days = year := by
  have hyear := daysBeforeYear_bounds year
  have hnext := daysBeforeYear_bounds (year + 1)
  have hguess : year - 1 ≤ days * 400 / 146097 ∧ days * 400 / 146097 ≤ year + 1 := by omega
  simp only [yearOfDay]
  generalize days * 400 / 146097 = guess at hguess
  -- The guess is the year or a neighbour of it, and then the day is not in the neighbour.
  have hcases : guess = year - 1 ∨ guess = year ∨ guess = year + 1 := by omega
  rcases hcases with rfl | rfl | rfl
  · have hprevious : daysBeforeYear (year - 1) ≤ days :=
      Int.le_trans (daysBeforeYear_le (by omega)) hlow
    rw [Int.sub_add_cancel, if_neg (by omega), if_pos hlow]
  · rw [if_neg (by omega), if_neg (by omega)]
  · rw [if_pos hhigh, Int.add_sub_cancel]

theorem daysBeforeMonth_succ (year : Int) {month : Nat} (hfirst : 1 ≤ month)
    (hlast : month ≤ 12) :
    daysBeforeMonth year (month + 1) = daysBeforeMonth year month + daysInMonth year month := by
  unfold daysBeforeMonth daysInMonth
  interval_cases month <;> cases isLeapYear year <;> rfl

theorem daysBeforeMonth_le (year : Int) {month other : Nat} (hfirst : 1 ≤ month)
    (hle : month ≤ other) : daysBeforeMonth year month ≤ daysBeforeMonth year other := by
  unfold daysBeforeMonth
  grind

theorem daysBeforeMonth_thirteen (year : Int) :
    daysBeforeMonth year 13 = if isLeapYear year then 366 else 365 := by
  unfold daysBeforeMonth
  cases isLeapYear year <;> rfl

/-- The months before a day of the year are passed over one by one. -/
theorem monthAndDay_range' {year : Int} {month day : Nat} (hlast : month ≤ 12)
    (hday : day < daysInMonth year month) {first count : Nat} (hfirst : 1 ≤ first)
    (hle : first ≤ month) (hcount : month < first + count) :
    monthAndDay year (List.range' first count)
      (daysBeforeMonth year month - daysBeforeMonth year first + day) = (month, day + 1) := by
  induction count generalizing first with
  | zero => omega
  | succ count ih =>
      rw [List.range'_succ, monthAndDay]
      rcases Nat.eq_or_lt_of_le hle with rfl | hlt
      · rw [Nat.sub_self, Nat.zero_add, if_pos hday]
      · have hstep := daysBeforeMonth_succ year hfirst (by omega)
        have hnext : first + 1 ≤ month := hlt
        have hpassed := daysBeforeMonth_le year (by omega) hnext
        rw [if_neg (by omega), ← ih (by omega) hnext (by omega)]
        congr 1
        omega

/-- The days of a year before a date of it. -/
theorem dayOfYear_lt (date : Date) :
    daysBeforeMonth date.year date.month + (date.day - 1) <
      if isLeapYear date.year then 366 else 365 := by
  obtain ⟨-, -, hfirst, hlast, hday, hdays⟩ := date.isDate
  have hstep := daysBeforeMonth_succ date.year hfirst hlast
  have hend := daysBeforeMonth_le date.year (by omega : 1 ≤ date.month + 1)
    (by omega : date.month + 1 ≤ 13)
  rw [daysBeforeMonth_thirteen] at hend
  omega

/-- A date is found by its number. -/
theorem ofDayNumber?_dayNumber (date : Date) : ofDayNumber? date.dayNumber = some date := by
  obtain ⟨-, -, hfirst, hlast, hday, hdays⟩ := date.isDate
  have hlength := date.dayOfYear_lt
  have hdate : date.dayNumber + daysBeforeYear 2000 = daysBeforeYear date.year +
      ((daysBeforeMonth date.year date.month + (date.day - 1) : Nat) : Int) := by
    rw [dayNumber]
    omega
  have hyear : yearOfDay (date.dayNumber + daysBeforeYear 2000) = date.year := by
    refine yearOfDay_eq (by omega) ?_
    rw [daysBeforeYear_succ]
    split at hlength
    next hleap =>
      rw [if_pos hleap]
      omega
    next hleap =>
      rw [if_neg hleap]
      omega
  have hmonth : monthAndDay date.year [1, 2, 3, 4, 5, 6, 7, 8, 9, 10, 11, 12]
      (date.dayNumber + daysBeforeYear 2000 - daysBeforeYear date.year).toNat =
        (date.month, date.day) := by
    have hbefore : date.day - 1 < daysInMonth date.year date.month := by omega
    have hfound := monthAndDay_range' hlast hbefore (Nat.le_refl 1) hfirst
      (by omega : date.month < 1 + 12)
    rw [Nat.sub_add_cancel hday] at hfound
    rw [← hfound]
    congr 1
    rw [hdate]
    have hnone : daysBeforeMonth date.year 1 = 0 := rfl
    omega
  simp only [ofDayNumber?, hyear, hmonth]
  exact dif_pos date.isDate

/-- The calendar is shorter than a hundred million days on either side of the origin. -/
theorem dayNumber_bounds (date : Date) :
    -100000000 < date.dayNumber ∧ date.dayNumber < 100000000 := by
  obtain ⟨hfrom, hto, -⟩ := date.isDate
  have hlength := date.dayOfYear_lt
  have hyear := daysBeforeYear_bounds date.year
  have horigin : daysBeforeYear 2000 = 730485 := rfl
  rw [dayNumber, horigin]
  split at hlength <;> omega

end Date

namespace TimeOfDay

theorem seconds_lt (time : TimeOfDay) : time.seconds < 86400 := by
  obtain ⟨hhour, hminute, hsecond, -⟩ := time.isTime
  rw [seconds]
  omega

/-- A time of whole microseconds is found by them. -/
theorem ofMicros?_eq {time : TimeOfDay} (hleap : time.isLeapSecond = false)
    (hwhole : time.nanos % 1000 = 0) :
    ofMicros? (time.seconds * 1000000 + time.nanos / 1000) = some time := by
  obtain ⟨hhour, hminute, hsecond, -⟩ := time.isTime
  have hnanos : time.nanos < 1000000000 := by
    simpa [isLeapSecond] using hleap
  have hseconds : (time.seconds * 1000000 + time.nanos / 1000) / 1000000 = time.seconds := by omega
  have hmicros : (time.seconds * 1000000 + time.nanos / 1000) % 1000000 * 1000 = time.nanos := by
    omega
  have hparts : time.seconds / 3600 = time.hour ∧ time.seconds / 60 % 60 = time.minute ∧
      time.seconds % 60 = time.second := by
    rw [seconds]
    omega
  rw [ofMicros?]
  simp only [hseconds, hmicros, hparts]
  exact dif_pos time.isTime

end TimeOfDay

namespace Timestamp

theorem microsSinceOrigin_eq {stamp : Timestamp} (hwhole : stamp.time.nanos % 1000 = 0) :
    stamp.microsSinceOrigin = stamp.date.dayNumber * 86400000000 +
      ((stamp.time.seconds * 1000000 + stamp.time.nanos / 1000 : Nat) : Int) := by
  have hnanos : stamp.nanosSinceOrigin = 1000 * (stamp.date.dayNumber * 86400000000 +
      ((stamp.time.seconds * 1000000 + stamp.time.nanos / 1000 : Nat) : Int)) := by
    rw [nanosSinceOrigin]
    omega
  rw [microsSinceOrigin, hnanos]
  exact Int.mul_tdiv_cancel_left _ (by decide)

/-- A timestamp of whole microseconds is found by them. -/
theorem ofMicros?_microsSinceOrigin {stamp : Timestamp} (hleap : stamp.time.isLeapSecond = false)
    (hwhole : stamp.time.nanos % 1000 = 0) :
    ofMicros? stamp.microsSinceOrigin = some stamp := by
  have hseconds := stamp.time.seconds_lt
  have hnanos : stamp.time.nanos < 1000000000 := by
    simpa [TimeOfDay.isLeapSecond] using hleap
  rw [ofMicros?, microsSinceOrigin_eq hwhole]
  generalize hmicros : stamp.time.seconds * 1000000 + stamp.time.nanos / 1000 = micros
  have hlt : micros < 86400000000 := by omega
  have hday : (stamp.date.dayNumber * 86400000000 + (micros : Int)) / 86400000000 =
      stamp.date.dayNumber := by omega
  have htime : ((stamp.date.dayNumber * 86400000000 + (micros : Int)) % 86400000000).toNat =
      micros := by omega
  rw [hday, htime, Date.ofDayNumber?_dayNumber, ← hmicros, TimeOfDay.ofMicros?_eq hleap hwhole]
  rfl

/-- Sixty-four bits hold the microseconds of every timestamp. -/
theorem microsSinceOrigin_bounds (stamp : Timestamp) :
    -2 ^ 63 ≤ stamp.microsSinceOrigin ∧ stamp.microsSinceOrigin < 2 ^ 63 := by
  have hday := stamp.date.dayNumber_bounds
  have hseconds := stamp.time.seconds_lt
  have hnanos : stamp.time.nanos < 2000000000 := by
    have htime := stamp.time.isTime.2.2.2
    omega
  have hsum : -(9 * 10 ^ 21) < stamp.nanosSinceOrigin ∧ stamp.nanosSinceOrigin < 9 * 10 ^ 21 := by
    rw [nanosSinceOrigin]
    omega
  have hcut := Int.mul_tdiv_add_tmod stamp.nanosSinceOrigin 1000
  have hrest_high := Int.tmod_lt_of_pos stamp.nanosSinceOrigin (by decide : (0 : Int) < 1000)
  have hrest_low := Int.lt_tmod_of_pos stamp.nanosSinceOrigin (by decide : (0 : Int) < 1000)
  rw [microsSinceOrigin]
  omega

end Timestamp

end FilterSql

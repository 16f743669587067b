/-
Dates of the proleptic Gregorian calendar.

Years run from -262143 to 262142, year 0 included.  A date also has a number: the days
from the first of January 2000 to it, negative before.
-/

namespace FilterSql

/-- A year with a 29th of February. -/
def isLeapYear (year : Int) : Bool :=
  year % 4 == 0 && (year % 100 != 0 || year % 400 == 0)

/-- The number of days in a month of a year. -/
def daysInMonth (year : Int) (month : Nat) : Nat :=
  if month = 2 then if isLeapYear year then 29 else 28
  else if month = 4 ∨ month = 6 ∨ month = 9 ∨ month = 11 then 30
  else 31

/-- Year, month and day name a day of the calendar. -/
def IsDate (year : Int) (month day : Nat) : Prop :=
  -262143 ≤ year ∧ year ≤ 262142 ∧ 1 ≤ month ∧ month ≤ 12 ∧
    1 ≤ day ∧ day ≤ daysInMonth year month

instance (year : Int) (month day : Nat) : Decidable (IsDate year month day) :=
  inferInstanceAs (Decidable (_ ∧ _))

/-- A day of the calendar. -/
structure Date where
  year : Int
  month : Nat
  day : Nat
  isDate : IsDate year month day
deriving DecidableEq

namespace Date

/-- The date with these numbers, when there is one. -/
def ofYmd? (year : Int) (month day : Nat) : Option Date :=
  if h : IsDate year month day then some ⟨year, month, day, h⟩ else none

/-- The first of January 2000. -/
def origin : Date := ⟨2000, 1, 1, by decide⟩

instance : Inhabited Date := ⟨origin⟩

/-- Days from the first of January of year 0 to that of `year`. -/
def daysBeforeYear (year : Int) : Int :=
  365 * year + (year + 3) / 4 - (year + 99) / 100 + (year + 399) / 400

/-- Days of a year before the first of a month. -/
def daysBeforeMonth (year : Int) (month : Nat) : Nat :=
  (367 * month - 362) / 12 -
    if month ≤ 2 then 0 else if isLeapYear year then 1 else 2

/-- Days from the origin to a date. -/
def dayNumber (date : Date) : Int :=
  daysBeforeYear date.year + daysBeforeMonth date.year date.month + (date.day - 1 : Nat) -
    daysBeforeYear 2000

/-- The month and day of a day of the year, counted from zero, over the months given. -/
def monthAndDay (year : Int) : List Nat → Nat → Nat × Nat
  | [], rest => (12, rest + 1)
  | month :: months, rest =>
      if rest < daysInMonth year month then (month, rest + 1)
      else monthAndDay year months (rest - daysInMonth year month)

/-- The year that holds a day counted from the first of January of year 0. -/
def yearOfDay (days : Int) : Int :=
  let guess := days * 400 / 146097
  if days < daysBeforeYear guess then guess - 1
  else if daysBeforeYear (guess + 1) ≤ days then guess + 1
  else guess

/-- The date with a day number, when it is within the calendar. -/
def ofDayNumber? (n : Int) : Option Date :=
  let days := n + daysBeforeYear 2000
  let year := yearOfDay days
  let (month, day) :=
    monthAndDay year [1, 2, 3, 4, 5, 6, 7, 8, 9, 10, 11, 12] (days - daysBeforeYear year).toNat
  ofYmd? year month day

end Date

/-- A number in decimal with zeros in front up to a width. -/
def padded (width n : Nat) : List Char :=
  let digits := Nat.toDigits 10 n
  List.replicate (width - digits.length) '0' ++ digits

/-- A year in four digits; outside 0 to 9999 with a sign. -/
def yearText (year : Int) : List Char :=
  if 0 ≤ year ∧ year ≤ 9999 then padded 4 year.toNat
  else (if year < 0 then '-' else '+') :: padded 4 year.natAbs

/-- Year, month and day with hyphens between. -/
def Date.chars (date : Date) : List Char :=
  yearText date.year ++ '-' :: padded 2 date.month ++ '-' :: padded 2 date.day

/-- The text of a date, such as `2023-01-05`. -/
def Date.toText (date : Date) : String :=
  String.ofList date.chars

end FilterSql

/-
A date with a time of day, to the nanosecond.

A leap second is the second 59 of a minute with a thousand million nanoseconds or more;
it is written as second 60.
-/
import FilterSql.Calendar.Date

namespace FilterSql

/-- Hour, minute, second and nanosecond name a time of day, leap seconds included. -/
def IsTime (hour minute second nanos : Nat) : Prop :=
  hour < 24 ∧ minute < 60 ∧ second < 60 ∧
    (nanos < 1000000000 ∨ second = 59 ∧ nanos < 2000000000)

instance (hour minute second nanos : Nat) : Decidable (IsTime hour minute second nanos) :=
  inferInstanceAs (Decidable (_ ∧ _))

/-- A time of day. -/
structure TimeOfDay where
  hour : Nat
  minute : Nat
  second : Nat
  nanos : Nat
  isTime : IsTime hour minute second nanos
deriving DecidableEq

namespace TimeOfDay

/-- The time with these numbers, when there is one. -/
def ofHms? (hour minute second nanos : Nat) : Option TimeOfDay :=
  if h : IsTime hour minute second nanos then some ⟨hour, minute, second, nanos, h⟩ else none

/-- The start of a day. -/
def midnight : TimeOfDay := ⟨0, 0, 0, 0, by decide⟩

/-- The last whole second of a day. -/
def endOfDay : TimeOfDay := ⟨23, 59, 59, 0, by decide⟩

/-- Seconds since midnight, a leap second counted as the one before it. -/
def seconds (time : TimeOfDay) : Nat :=
  time.hour * 3600 + time.minute * 60 + time.second

/-- A leap second is under way. -/
def isLeapSecond (time : TimeOfDay) : Bool :=
  1000000000 ≤ time.nanos

/-- Hours, minutes and seconds with colons between; a leap second is second 60. -/
def chars (time : TimeOfDay) : List Char :=
  padded 2 time.hour ++ ':' :: padded 2 time.minute ++
    ':' :: padded 2 (if time.isLeapSecond then time.second + 1 else time.second)

/-- The fraction of the second in three, six or nine digits; nothing when it is zero. -/
def fractionChars (time : TimeOfDay) : List Char :=
  let nanos := time.nanos % 1000000000
  if nanos = 0 then []
  else if nanos % 1000000 = 0 then '.' :: padded 3 (nanos / 1000000)
  else if nanos % 1000 = 0 then '.' :: padded 6 (nanos / 1000)
  else '.' :: padded 9 nanos

/-- The time a number of microseconds after midnight, within one day. -/
def ofMicros? (micros : Nat) : Option TimeOfDay :=
  let seconds := micros / 1000000
  ofHms? (seconds / 3600) (seconds / 60 % 60) (seconds % 60) (micros % 1000000 * 1000)

end TimeOfDay

/-- A time of day on a date. -/
structure Timestamp where
  date : Date
  time : TimeOfDay
deriving DecidableEq

namespace Timestamp

/-- Date and time with a blank between, to the second. -/
def toText (stamp : Timestamp) : String :=
  String.ofList (stamp.date.chars ++ ' ' :: stamp.time.chars)

/-- Date and time with a `T` between and the fraction of the second. -/
def toIsoText (stamp : Timestamp) : String :=
  String.ofList (stamp.date.chars ++ 'T' :: stamp.time.chars ++ stamp.time.fractionChars)

/-- Nanoseconds from the start of the origin's day. -/
def nanosSinceOrigin (stamp : Timestamp) : Int :=
  (stamp.date.dayNumber * 86400 + stamp.time.seconds) * 1000000000 + stamp.time.nanos

/-- Microseconds from the start of the origin's day, cut toward it. -/
def microsSinceOrigin (stamp : Timestamp) : Int :=
  stamp.nanosSinceOrigin.tdiv 1000

/-- The timestamp a number of microseconds from the start of the origin's day. -/
def ofMicros? (micros : Int) : Option Timestamp := do
  let date ← Date.ofDayNumber? (micros / 86400000000)
  let time ← TimeOfDay.ofMicros? (micros % 86400000000).toNat
  return ⟨date, time⟩

end Timestamp

end FilterSql

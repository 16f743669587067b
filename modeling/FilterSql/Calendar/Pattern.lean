/-
Dates and times read by a pattern.

A pattern is a row of numbers, fixed texts and gaps.  A number may follow blanks and may
be shorter than its width; a gap stands for any blanks or none.  The whole text has to be
used up.
-/
import FilterSql.Text.Basic
import FilterSql.Calendar.Timestamp

namespace FilterSql

open FilterSql.Text (isAsciiDigit trimStart)

namespace Calendar

/-- The numbers that a pattern can ask for. -/
inductive Part
  | year
  | month
  | day
  | hour
  | minute
  | second
deriving DecidableEq

/-- One item of a pattern. -/
inductive Item
  | number (part : Part)
  | fraction
  | literal (c : Char)
  | gap

/-- What has been read so far; the parts a pattern leaves out are zero. -/
structure Reading where
  year : Int
  month : Nat
  day : Nat
  hour : Nat
  minute : Nat
  second : Nat
  nanos : Nat

/-- Nothing read yet. -/
def Reading.start : Reading := ⟨0, 0, 0, 0, 0, 0, 0⟩

/-- Note the number of a part; the day and month are checked when the date is made. -/
def Reading.set (reading : Reading) (n : Int) : Part → Reading
  | .year => { reading with year := n }
  | .month => { reading with month := n.toNat }
  | .day => { reading with day := n.toNat }
  | .hour => { reading with hour := n.toNat }
  | .minute => { reading with minute := n.toNat }
  | .second => { reading with second := n.toNat }

/-- At least one digit and at most `width` of them, where there is a width. -/
def readNumber? (width : Option Nat) (cs : List Char) : Option (Nat × List Char) :=
  let run := cs.takeWhile isAsciiDigit
  let digits :=
    match width with
    | some w => run.take w
    | none => run
  if digits.isEmpty then none
  else some (Nat.ofDigitChars 10 digits 0, cs.drop digits.length)

/-- A year may have a sign, and then any number of digits; without one it has four. -/
def readYear? : List Char → Option (Int × List Char)
  | '-' :: cs => (readNumber? none cs).map fun (n, rest) => (-(n : Int), rest)
  | '+' :: cs => (readNumber? none cs).map fun (n, rest) => ((n : Int), rest)
  | cs => (readNumber? (some 4) cs).map fun (n, rest) => ((n : Int), rest)

/-- The number of a part: a year as above, all else in at most two digits. -/
def readPart? : Part → List Char → Option (Int × List Char)
  | .year, cs => readYear? cs
  | _, cs => (readNumber? (some 2) cs).map fun (n, rest) => ((n : Int), rest)

/-- The fraction of a second after its point, to the nanosecond; none at all is zero. -/
def readFraction? : List Char → Option (Nat × List Char)
  | '.' :: cs =>
      let run := cs.takeWhile isAsciiDigit
      let kept := run.take 9
      if run.isEmpty then none
      else
        some (Nat.ofDigitChars 10 kept 0 * Nat.pow 10 (9 - kept.length), cs.drop run.length)
  | cs => some (0, cs)

/-- Read one item. -/
def Item.read? (reading : Reading) (cs : List Char) : Item → Option (Reading × List Char)
  | .number part => (readPart? part (trimStart cs)).map fun (n, rest) => (reading.set n part, rest)
  | .fraction => (readFraction? cs).map fun (n, rest) => ({ reading with nanos := n }, rest)
  | .literal c =>
      match cs with
      | d :: rest => if d = c then some (reading, rest) else none
      | [] => none
  | .gap => some (reading, trimStart cs)

/-- Read a row of items to the end of the text. -/
def readItems? (reading : Reading) (cs : List Char) : List Item → Option Reading
  | [] => if cs.isEmpty then some reading else none
  | item :: items =>
      match item.read? reading cs with
      | some (next, rest) => readItems? next rest items
      | none => none

/-- The date of a reading. -/
def Reading.date? (reading : Reading) : Option Date :=
  Date.ofYmd? reading.year reading.month reading.day

/-- The time of a reading; second 60 is the leap second after second 59. -/
def Reading.time? (reading : Reading) : Option TimeOfDay :=
  if reading.second = 60 then
    TimeOfDay.ofHms? reading.hour reading.minute 59 (1000000000 + reading.nanos)
  else TimeOfDay.ofHms? reading.hour reading.minute reading.second reading.nanos

/-- The timestamp of a reading. -/
def Reading.timestamp? (reading : Reading) : Option Timestamp := do
  let date ← reading.date?
  let time ← reading.time?
  return ⟨date, time⟩

/-- Year, month and day with hyphens between. -/
def datePattern : List Item :=
  [.number .year, .literal '-', .number .month, .literal '-', .number .day]

/-- Hour and minute with a colon between. -/
def hourMinutePattern : List Item :=
  [.number .hour, .literal ':', .number .minute]

/-- Hour, minute and second with colons between. -/
def timePattern : List Item :=
  hourMinutePattern ++ [.literal ':', .number .second]

/-- The forms of a timestamp in a filter value, in the order they are tried. -/
def timestampPatterns : List (List Item) :=
  [datePattern ++ .gap :: timePattern,
    datePattern ++ .literal 'T' :: timePattern,
    datePattern ++ .gap :: hourMinutePattern]

/-- A date on the wire: gaps may stand around the hyphens. -/
def wireDatePattern : List Item :=
  [.number .year, .gap, .literal '-', .number .month, .gap, .literal '-', .number .day, .gap]

/-- A time on the wire: gaps may stand around the colons, and a fraction of the second may
follow. -/
def wireTimePattern : List Item :=
  [.number .hour, .gap, .literal ':', .number .minute, .gap, .literal ':', .number .second,
    .fraction, .gap]

/-- A timestamp on the wire: a `T` between date and time. -/
def wireTimestampPattern : List Item :=
  wireDatePattern ++ .literal 'T' :: wireTimePattern

/-- The date that a text names by a pattern. -/
def readDate? (pattern : List Item) (cs : List Char) : Option Date :=
  (readItems? .start cs pattern).bind Reading.date?

/-- The timestamp that a text names by a pattern. -/
def readTimestamp? (pattern : List Item) (cs : List Char) : Option Timestamp :=
  (readItems? .start cs pattern).bind Reading.timestamp?

end Calendar

end FilterSql

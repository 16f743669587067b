/-
Operands read as values of a column's type.

Dates may also be written as codes of digits: six or eight for a day, four or six for a
month, two or four for a year.  A year of two digits is one of this century.
-/
import FilterSql.Calendar.Pattern
import FilterSql.Number.Reader
import FilterSql.Schema.ColumnType
import FilterSql.Value

namespace FilterSql.Operand

/-- A finite double. -/
def float? (cs : List Char) : Option Value :=
  ((Number.readBinary64? cs).filter Binary64.isFinite).map .float

/-- A number: for an integer column an integer where it is one, else a double. -/
def numeric? (raw : String) (type : ColumnType) : Option Value :=
  let cs := Text.trim raw.toList
  match type, Number.readInt64? cs with
  | .int, some n => some (.int n)
  | _, _ => float? cs

/-- A truth value by its word. -/
def boolean? (raw : String) : Option Value :=
  (Value.readBool? (Text.trimmed raw)).map .boolean

/-- Digits only, and as many as one of the lengths says; lengths are counted in bytes. -/
def isDigitCode (lengths : List Nat) (raw : String) : Bool :=
  lengths.contains raw.utf8ByteSize && raw.toList.all Text.isAsciiDigit

/-- The year of two digits, which are put after `20`, or of four characters. -/
def fullYear? (digits : String) : Option Int :=
  if digits.utf8ByteSize = 2 then Number.readInt? ('2' :: '0' :: digits.toList)
  else if digits.utf8ByteSize = 4 then Number.readInt? digits.toList
  else none

/-- A code cut before its last `count` digits. -/
def splitCode (count : Nat) (code : List Char) : List Char × List Char :=
  code.splitAt (code.length - count)

/-- The day of a code of six or eight digits. -/
def compactDate? (raw : String) : Option Date := do
  let code := Text.trimmed raw
  if isDigitCode [6, 8] code then
    let (year, monthAndDay) := splitCode 4 code.toList
    let (month, day) := splitCode 2 monthAndDay
    let year ← fullYear? (String.ofList year)
    let month ← Number.readDigits? month
    let day ← Number.readDigits? day
    Date.ofYmd? year month day
  else none

/-- The year and month of a code of four or six digits. -/
def compactMonth? (raw : String) : Option (Int × Nat) := do
  let code := Text.trimmed raw
  if isDigitCode [4, 6] code then
    let (year, month) := splitCode 2 code.toList
    let month ← (Number.readDigits? month).filter fun month => 1 ≤ month && month ≤ 12
    let year ← fullYear? (String.ofList year)
    return (year, month)
  else none

/-- The year of a code of two or four digits. -/
def compactYear? (raw : String) : Option Int :=
  let code := Text.trimmed raw
  if isDigitCode [2, 4] code then fullYear? code else none

/-- A timestamp by one of its patterns, else a date by its pattern or its code. -/
def temporal? (raw : String) : Option Value :=
  let cs := Text.trim raw.toList
  match Calendar.timestampPatterns.findSome? (Calendar.readTimestamp? · cs) with
  | some stamp => some (.timestamp stamp)
  | none =>
      ((Calendar.readDate? Calendar.datePattern cs).or (compactDate? (String.ofList cs))).map .date

/-- A value of a type; a column without a type takes any text. -/
def scalar? (type : Option ColumnType) (raw : String) : Option Value :=
  match type with
  | some .int => numeric? raw .int
  | some .float => numeric? raw .float
  | some .bool => boolean? raw
  | some .temporal => temporal? raw
  | some .string => some (.string (Text.trimmed raw))
  | none => some (.string (Text.trimmed raw))

end FilterSql.Operand

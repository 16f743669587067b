/-
Numbers read from text.

A whole number is an optional sign and digits.  A double is an optional sign and digits
with an optional point and exponent, at least one digit standing beside the point, or a
name: `inf`, `infinity` or `nan` in any case.  Nothing else may stand in the text.
-/
import FilterSql.Text.Basic
import FilterSql.Number.Binary64

namespace FilterSql.Number

open FilterSql.Text (isAsciiDigit asciiLower)

/-- The value of a text that is one or more digits. -/
def readDigits? (cs : List Char) : Option Nat :=
  if !cs.isEmpty && cs.all isAsciiDigit then some (Nat.ofDigitChars 10 cs 0) else none

/-- Split off a leading sign; true for a minus. -/
def splitSign : List Char → Bool × List Char
  | '-' :: cs => (true, cs)
  | '+' :: cs => (false, cs)
  | cs => (false, cs)

/-- The value of a text that is digits with an optional sign. -/
def readInt? (cs : List Char) : Option Int :=
  let (negative, digits) := splitSign cs
  (readDigits? digits).map fun n => if negative then -(n : Int) else n

/-- A whole number between two bounds. -/
def readBounded? (low high : Int) (cs : List Char) : Option Int :=
  (readInt? cs).filter fun n => low ≤ n && n ≤ high

/-- A 64-bit integer. -/
def readInt64? (cs : List Char) : Option Int64 :=
  (readBounded? Int64.minValue.toInt Int64.maxValue.toInt cs).map Int64.ofInt

/-- A 64-bit natural number; a plus may stand before it, a minus may not. -/
def readUInt64? (cs : List Char) : Option UInt64 :=
  let digits :=
    match cs with
    | '+' :: rest => rest
    | _ => cs
  ((readDigits? digits).filter (· < UInt64.size)).map UInt64.ofNat

/-- The exponent after its mark; none at all is zero. -/
def readExponent? : List Char → Option Int
  | [] => some 0
  | c :: cs => if c = 'e' ∨ c = 'E' then readInt? cs else none

/-- The digits of a decimal and where its point stands, before any exponent. -/
def readMantissa? (cs : List Char) : Option (Nat × Int × List Char) :=
  let whole := cs.takeWhile isAsciiDigit
  let afterWhole := cs.dropWhile isAsciiDigit
  let (fraction, rest) :=
    match afterWhole with
    | '.' :: tail => (tail.takeWhile isAsciiDigit, tail.dropWhile isAsciiDigit)
    | _ => ([], afterWhole)
  if whole.isEmpty && fraction.isEmpty then none
  else some (Nat.ofDigitChars 10 (whole ++ fraction) 0, -(fraction.length : Int), rest)

/-- A double without its sign. -/
def readMagnitude? (negative : Bool) (cs : List Char) : Option Binary64 :=
  match readMantissa? cs with
  | some (digits, exponent, rest) =>
      (readExponent? rest).map fun e => Binary64.ofDecimal negative digits (exponent + e)
  | none =>
      let name := asciiLower cs
      if name = ['i', 'n', 'f'] ∨ name = ['i', 'n', 'f', 'i', 'n', 'i', 't', 'y'] then
        some (Binary64.infinite negative)
      else if name = ['n', 'a', 'n'] then some (Binary64.nan negative)
      else none

/-- A double; the nearest one to the decimal that is written. -/
def readBinary64? (cs : List Char) : Option Binary64 :=
  let (negative, magnitude) := splitSign cs
  readMagnitude? negative magnitude

end FilterSql.Number

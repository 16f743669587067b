/-
How a double is written in decimal.

The digits are the shortest that read back; a layout says where they stand.  Numbers in
SQL text are written in full, without an exponent and without a point on whole ones;
numbers in JSON keep a point and turn to an exponent when they are very large or small.
-/
import FilterSql.Number.Shortest

namespace FilterSql

/-- The digits of an integer after its sign. -/
def intChars (n : Int) : List Char :=
  (if n < 0 then ['-'] else []) ++ Nat.toDigits 10 n.natAbs

/-- The text of an integer. -/
def intText (n : Int) : String :=
  String.ofList (intChars n)

/-- The decisions of a written form of doubles. -/
structure NumberLayout where
  /-- Which of two equally close digit strings is taken. -/
  tie : TieRule
  /-- The exponents of the first digit that are written without an exponent. -/
  positional : Int → Bool
  /-- Whether a whole number ends in a point and a zero. -/
  wholeHasPoint : Bool

namespace NumberLayout

/-- Plain text: always written in full, an equally close choice goes up. -/
def plain : NumberLayout := ⟨.up, fun _ => true, false⟩

/-- JSON: in full from `1e-5` up to below `1e16`, always with a point there. -/
def json : NumberLayout := ⟨.even, fun e => -5 ≤ e && e < 16, true⟩

/-- Digits with a point `places` digits before their end. -/
def withPoint (digits : List Char) (places : Nat) : List Char :=
  if places < digits.length then
    digits.take (digits.length - places) ++ '.' :: digits.drop (digits.length - places)
  else '0' :: '.' :: (List.replicate (places - digits.length) '0' ++ digits)

/-- A decimal in full. -/
def writePositional (wholeHasPoint : Bool) (digits : List Char) (exponent : Int) : List Char :=
  if 0 ≤ exponent then
    digits ++ List.replicate exponent.toNat '0' ++ if wholeHasPoint then ['.', '0'] else []
  else withPoint digits (-exponent).toNat

/-- A decimal with one digit before the point and a signed exponent. -/
def writeScientific (digits : List Char) (leading : Int) : List Char :=
  let fraction := digits.drop 1
  digits.take 1 ++ (if fraction.isEmpty then [] else '.' :: fraction) ++
    ['e', if leading < 0 then '-' else '+'] ++ Nat.toDigits 10 leading.natAbs

/-- The digits of a finite magnitude laid out. -/
def writeMagnitude (layout : NumberLayout) (d : Decimal) : List Char :=
  let digits := Nat.toDigits 10 d.digits
  let leading : Int := d.exponent + digits.length - 1
  if layout.positional leading then writePositional layout.wholeHasPoint digits d.exponent
  else writeScientific digits leading

/-- The text of a finite double. -/
def writeFinite (layout : NumberLayout) (x : Binary64) : List Char :=
  (if x.negative then ['-'] else []) ++ layout.writeMagnitude (Decimal.shortest layout.tie x)

end NumberLayout

/-- The text of a double: `NaN`, `inf` and `-inf` for what is not finite. -/
def Binary64.toText (x : Binary64) : String :=
  if x.isNan then "NaN"
  else if x.isFinite then String.ofList (NumberLayout.plain.writeFinite x)
  else if x.negative then "-inf"
  else "inf"

end FilterSql

/-
Double precision numbers by their 64 bits.

Every operation is exact arithmetic on fractions followed by one rounding, so each
result is the double nearest to the exact one.
-/
import FilterSql.Number.BinaryFormat

namespace FilterSql

/-- A double precision number. -/
structure Binary64 where
  bits : UInt64
deriving DecidableEq, Inhabited

namespace Binary64

/-- The double with this sign and this pattern of its magnitude. -/
def ofPattern (negative : Bool) (pattern : Nat) : Binary64 :=
  ⟨UInt64.ofNat (pattern + if negative then BinaryFormat.binary64.signWeight else 0)⟩

/-- Whether the sign bit is set. -/
def negative (x : Binary64) : Bool :=
  BinaryFormat.binary64.signWeight ≤ x.bits.toNat

/-- The bits below the sign. -/
def pattern (x : Binary64) : Nat :=
  x.bits.toNat % BinaryFormat.binary64.signWeight

/-- Neither an infinity nor a not-a-number. -/
def isFinite (x : Binary64) : Bool :=
  x.pattern < BinaryFormat.binary64.infinity

/-- Not a number. -/
def isNan (x : Binary64) : Bool :=
  BinaryFormat.binary64.infinity < x.pattern

/-- Zero of either sign. -/
def isZero (x : Binary64) : Bool :=
  x.pattern == 0

/-- The magnitude of a finite double as a fraction. -/
def ratio (x : Binary64) : Nat × Nat :=
  BinaryFormat.binary64.ratio x.pattern

/-- The double nearest to a fraction with a sign. -/
def ofRatio (negative : Bool) (num den : Nat) : Binary64 :=
  ofPattern negative (BinaryFormat.binary64.nearest num den)

/-- The double nearest to a natural number. -/
def ofNat (n : Nat) : Binary64 :=
  ofRatio false n 1

/-- The double nearest to an integer. -/
def ofInt (n : Int) : Binary64 :=
  ofRatio (n < 0) n.natAbs 1

/-- The same magnitude with the other sign. -/
def neg (x : Binary64) : Binary64 :=
  ofPattern (!x.negative) x.pattern

/-- The infinity of a sign. -/
def infinite (negative : Bool) : Binary64 :=
  ofPattern negative BinaryFormat.binary64.infinity

/-- The quiet not-a-number of a sign. -/
def nan (negative : Bool) : Binary64 :=
  ofPattern negative BinaryFormat.binary64.quietNan

/-- The nearest double to the product of two finite ones. -/
def mul (x y : Binary64) : Binary64 :=
  ofRatio (x.negative != y.negative) (x.ratio.1 * y.ratio.1) (x.ratio.2 * y.ratio.2)

/-- The nearest double to the quotient of two finite ones, the second not zero. -/
def div (x y : Binary64) : Binary64 :=
  ofRatio (x.negative != y.negative) (x.ratio.1 * y.ratio.2) (x.ratio.2 * y.ratio.1)

/-- The nearest double to the sum of the magnitudes of two finite ones. -/
def addMagnitudes (x y : Binary64) : Binary64 :=
  ofRatio false (x.ratio.1 * y.ratio.2 + y.ratio.1 * x.ratio.2) (x.ratio.2 * y.ratio.2)

/-- The nearest whole number to a finite magnitude, a half away from zero. -/
def roundMagnitude (x : Binary64) : Binary64 :=
  let (num, den) := x.ratio
  ofNat ((2 * num + den) / (2 * den))

/-- A finite double without a fractional part. -/
def isWhole (x : Binary64) : Bool :=
  x.isFinite && x.ratio.1 % x.ratio.2 == 0

/-- The magnitude of a finite double without its fractional part. -/
def wholePart (x : Binary64) : Nat :=
  x.ratio.1 / x.ratio.2

/-- The whole part with its sign, kept within the 64-bit integers; zero if not a number. -/
def toInt64 (x : Binary64) : Int64 :=
  if x.isNan then 0
  else if x.isFinite then
    Int64.ofIntClamp (if x.negative then -(x.wholePart : Int) else x.wholePart)
  else if x.negative then Int64.minValue
  else Int64.maxValue

/-- The bits of the nearest single precision number. -/
def toBinary32 (x : Binary64) : UInt32 :=
  let magnitude :=
    if x.isNan then
      BinaryFormat.binary32.quietNan +
        x.pattern % (BinaryFormat.binary64.fractionBound / 2) / Nat.pow 2 29
    else if x.isFinite then BinaryFormat.binary32.nearest x.ratio.1 x.ratio.2
    else BinaryFormat.binary32.infinity
  UInt32.ofNat (magnitude + if x.negative then BinaryFormat.binary32.signWeight else 0)

/-- The double with the value of a single precision number. -/
def ofBinary32 (bits : UInt32) : Binary64 :=
  let format := BinaryFormat.binary32
  let magnitude := bits.toNat % format.signWeight
  let negative : Bool := format.signWeight ≤ bits.toNat
  if magnitude < format.infinity then
    let (num, den) := format.ratio magnitude
    ofRatio negative num den
  else if magnitude = format.infinity then infinite negative
  else
    ofPattern negative
      (BinaryFormat.binary64.quietNan + magnitude % (format.fractionBound / 2) * Nat.pow 2 29)

/-- How many decimal digits a number has; zero has one. -/
def decimalLength (n : Nat) : Nat :=
  (Nat.toDigits 10 n).length

/-- The double nearest to `digits × 10 ^ exponent`.  Past 400 places before or behind
the point the answer is an infinity or a zero, whatever the digits. -/
def ofDecimal (negative : Bool) (digits : Nat) (exponent : Int) : Binary64 :=
  let places : Int := (decimalLength digits : Int) + exponent
  if digits = 0 then ofPattern negative 0
  else if 400 < places then infinite negative
  else if places < -400 then ofPattern negative 0
  else ofRatio negative (digits * Nat.pow 10 exponent.toNat) (Nat.pow 10 (-exponent).toNat)

end Binary64

end FilterSql

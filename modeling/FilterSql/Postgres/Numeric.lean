/-
Exact decimal numbers.

A number is a coefficient of at most 96 bits over a power of ten.  In a message it is
written in groups of four digits around the point.  A double that is whole becomes the same
number; any other becomes the decimal of the about fifteen digits that it is good for.
-/
import FilterSql.Number.Binary64
import FilterSql.Postgres.Bytes

namespace FilterSql.Postgres

/-- A sign, a coefficient, and how many of its digits stand after the point. -/
structure Numeric where
  negative : Bool
  coefficient : Nat
  scale : Nat
deriving DecidableEq, Repr

namespace Numeric

/-- One more than the largest coefficient. -/
def coefficientBound : Nat := Nat.pow 2 96

/-- The most digits after the point that are kept. -/
def maxScale : Nat := 28

/-- A whole number. -/
def ofInt (n : Int) : Numeric :=
  ⟨n < 0, n.natAbs, 0⟩

/-- A coefficient and the power of ten that it is multiplied by. -/
structure Scaled where
  coefficient : Nat
  exponent : Int
deriving DecidableEq, Repr

namespace Scaled

/-- Half of the number under a power of ten that is one too low: an even coefficient is
halved and the power corrected, an odd one is taken as five tenths of it while there is
room, and cut off after that. -/
def halve (s : Scaled) : Scaled :=
  if s.coefficient % 2 = 0 then ⟨s.coefficient / 2, s.exponent + 1⟩
  else if s.coefficient * 5 < coefficientBound then ⟨s.coefficient * 5, s.exponent⟩
  else ⟨s.coefficient / 2, s.exponent + 1⟩

/-- Halve the number so many times. -/
def halveTimes : Nat → Scaled → Scaled
  | 0, s => s
  | n + 1, s => halveTimes n s.halve

/-- Drop the last digit, rounding a half up. -/
def dropDigit (s : Scaled) : Scaled :=
  ⟨s.coefficient / 10 + if 5 ≤ s.coefficient % 10 then 1 else 0, s.exponent + 1⟩

/-- Drop a number of digits; once nothing is left of them the number is zero. -/
def dropDigits : Nat → Scaled → Scaled
  | 0, s => s
  | n + 1, s => if s.coefficient < 10 then ⟨0, 0⟩ else dropDigits n s.dropDigit

/-- Drop digits after the point until 52 bits hold the coefficient. -/
def fitDouble : Nat → Scaled → Scaled
  | 0, s => s
  | n + 1, s =>
      if s.exponent < 0 ∧ Nat.pow 2 52 ≤ s.coefficient then fitDouble n s.dropDigit else s

/-- Drop zeros after the point. -/
def dropZeros : Nat → Scaled → Scaled
  | 0, s => s
  | n + 1, s =>
      if s.exponent < 0 ∧ s.coefficient % 10 = 0 then
        dropZeros n ⟨s.coefficient / 10, s.exponent + 1⟩
      else s

/-- The value of a coefficient after so many halvings, as a coefficient times a power of
ten; what does not fit is cut off. -/
def ofHalvings (coefficient halvings : Nat) : Scaled :=
  halveTimes halvings ⟨coefficient, -(halvings : Int)⟩

/-- The number without digits that are too many. -/
def rounded (s : Scaled) : Scaled :=
  let kept := dropDigits (-s.exponent - maxScale).toNat s
  let fitted := fitDouble (-kept.exponent).toNat kept
  dropZeros (-fitted.exponent).toNat fitted

end Scaled

/-- The decimal of a finite double, when a coefficient can hold it: a whole number as it
is, any other to the digits that it is good for. -/
def ofDouble? (x : Binary64) : Option Numeric :=
  let mantissa := BinaryFormat.binary64.mantissa x.pattern
  let exponent := BinaryFormat.binary64.exponent x.pattern
  if !x.isFinite then none
  else if x.isZero then some ⟨x.negative, 0, 0⟩
  else if exponent < 0 then
    let s := (Scaled.ofHalvings mantissa exponent.natAbs).rounded
    some ⟨x.negative, s.coefficient, (-s.exponent).toNat⟩
  else
    let whole := mantissa * Nat.pow 2 exponent.toNat
    if whole < coefficientBound then some ⟨x.negative, whole, 0⟩ else none

/-- The groups of four digits of a number, the first one first, at most `count` of them. -/
def groups : Nat → Nat → List Nat
  | 0, _ => []
  | count + 1, n => if n = 0 then [] else groups count (n / 10000) ++ [n % 10000]

/-- How many groups hold the digits after the point. -/
def fractionGroups (scale : Nat) : Nat :=
  (scale + 3) / 4

/-- The message of a number: how many groups there are, the place of the first one, the
sign, how many digits stand after the point, and the groups. -/
def encode (x : Numeric) : Bytes :=
  let filled := x.coefficient * Nat.pow 10 (4 * fractionGroups x.scale - x.scale)
  let digits := groups 8 filled
  if digits.isEmpty then Bytes.ofNat 8 0
  else
    let weight : Int := (digits.length : Int) - fractionGroups x.scale - 1
    Bytes.ofNat 2 digits.length ++ Bytes.ofInt 2 weight ++
      Bytes.ofNat 2 (if x.negative then 0x4000 else 0) ++ Bytes.ofNat 2 x.scale ++
      digits.flatMap (Bytes.ofNat 2)

/-- Coefficient and scale of a number without its sign. -/
structure Magnitude where
  coefficient : Nat
  scale : Nat
deriving DecidableEq, Repr

namespace Magnitude

/-- The magnitude with its last `count` digits rounded away, a half to the even
neighbour. -/
def roundAway (m : Magnitude) (count : Nat) : Magnitude :=
  ⟨roundHalfEven m.coefficient (Nat.pow 10 count), m.scale - count⟩

/-- The magnitude with as few digits rounded away as a coefficient needs. -/
def fit? (m : Magnitude) : Option Magnitude :=
  let candidates := (List.range (m.scale + 1)).map m.roundAway
  candidates.find? fun c => c.coefficient < coefficientBound

/-- The sum of two magnitudes, when a coefficient can hold its whole part. -/
def add? (m n : Magnitude) : Option Magnitude :=
  let scale := max m.scale n.scale
  let sum :=
    m.coefficient * Nat.pow 10 (scale - m.scale) + n.coefficient * Nat.pow 10 (scale - n.scale)
  fit? ⟨sum, scale⟩

/-- Without the zeros at the end, as far as they stand after the point. -/
def trimZeros : Nat → Magnitude → Magnitude
  | 0, m => m
  | n + 1, m =>
      if 0 < m.scale ∧ m.coefficient % 10 = 0 then trimZeros n ⟨m.coefficient / 10, m.scale - 1⟩
      else m

/-- A group of digits whose last one is this many places after the point. -/
def ofGroup (group places : Nat) : Magnitude :=
  if group = 0 then ⟨0, 0⟩ else trimZeros places ⟨group, places⟩

/-- Digits after the point dropped one by one; the last one that was rounds the rest. -/
def lower : Nat → Nat → Nat → Nat
  | 0, coefficient, last => coefficient + if 5 ≤ last then 1 else 0
  | n + 1, coefficient, _ =>
      if coefficient = 0 then 0 else lower n (coefficient / 10) (coefficient % 10)

/-- Zeros put behind the point as long as there is room; how many there was room for. -/
def raise : Nat → Magnitude → Magnitude
  | 0, m => m
  | n + 1, m =>
      if m.coefficient * 10 < coefficientBound then raise n ⟨m.coefficient * 10, m.scale + 1⟩
      else m

/-- The magnitude with so many digits after the point, as far as they are kept and there is
room. -/
def rescale (m : Magnitude) (scale : Nat) : Magnitude :=
  if m.scale = scale then m
  else if m.coefficient = 0 then ⟨0, min scale maxScale⟩
  else if scale < m.scale then ⟨lower (m.scale - scale) m.coefficient 0, scale⟩
  else raise (min scale maxScale - m.scale) m

end Magnitude

/-- Take groups into a whole number while a coefficient can hold it. -/
def readWhole? (n : Nat) : List Nat → Option Nat
  | [] => some n
  | group :: rest =>
      let next := n * 10000 + group
      if next < coefficientBound then readWhole? next rest else none

/-- Add groups after the point, the first of them ending at a place.  Of the one past the
last place that is kept only a half or more counts. -/
def addFraction? (m : Magnitude) (places : Nat) : List Nat → Option Magnitude
  | [] => some m
  | group :: rest =>
      if places ≤ maxScale then do
        let sum ← m.add? (Magnitude.ofGroup group places)
        addFraction? sum (places + 4) rest
      else if places = maxScale + 4 ∧ 5000 ≤ group then m.add? ⟨1, maxScale⟩
      else some m

/-- The number that groups make, the first of them standing for ten thousand to the power
of `weight`. -/
def ofGroups? (negative : Bool) (weight : Int) (scale : Nat) (digits : List Nat) :
    Option Numeric := do
  let wholeCount := (weight + 1).toNat
  let wholeGroups := digits.take wholeCount
  let missing := wholeCount - wholeGroups.length
  let read ← readWhole? 0 wholeGroups
  let unit := Nat.pow 10000 missing
  if unit < coefficientBound ∧ read * unit < coefficientBound then
    let start := 4 * (1 + (-weight - 1).toNat)
    let sum ← addFraction? ⟨read * unit, 0⟩ start (digits.drop wholeCount)
    let m := sum.rescale scale
    return ⟨negative, m.coefficient, m.scale⟩
  else none

/-- Numbers of two bytes each. -/
def readPairs : Nat → Bytes → Option (List Nat)
  | 0, _ => some []
  | n + 1, a :: b :: rest => (readPairs n rest).map (Bytes.toNat [a, b] :: ·)
  | _ + 1, _ => none

/-- Whether a sign word stands for something that is no number: its two highest bits are
set. -/
def isSpecial (sign : Nat) : Bool :=
  0xC000 ≤ sign

/-- The number of a message; what is not a number has none. -/
def decode? (bytes : Bytes) : Option Numeric := do
  let header ← readPairs 4 bytes
  match header with
  | [count, weight, sign, scale] => do
      let digits ← readPairs count (bytes.drop 8)
      if isSpecial sign then none
      else ofGroups? (sign == 0x4000) (Int.bmod weight 65536) scale digits
  | _ => none

/-- A power of a double by repeated squaring, each product rounded. -/
def power (base : Binary64) : Nat → Nat → Binary64 → Binary64
  | 0, _, result => result
  | fuel + 1, exponent, result =>
      let result := if exponent % 2 = 1 then result.mul base else result
      if exponent < 2 then result else power (base.mul base) fuel (exponent / 2) result

/-- Ten to a power. -/
def tenTo (exponent : Nat) : Binary64 :=
  power (Binary64.ofNat 10) (exponent + 1) exponent (Binary64.ofNat 1)

/-- The magnitude as a double: whole part and fraction added, and the sum rounded to the
digits after the point. -/
def magnitudeToDouble (x : Numeric) : Binary64 :=
  let unit := Nat.pow 10 x.scale
  let whole := Binary64.ofNat (x.coefficient / unit)
  let fraction := (Binary64.ofNat (x.coefficient % unit)).div (Binary64.ofNat unit)
  if fraction.isZero then whole
  else
    let scaled := (whole.addMagnitudes fraction).mul (tenTo x.scale)
    scaled.roundMagnitude.div (tenTo x.scale)

/-- The number as a double. -/
def toDouble (x : Numeric) : Binary64 :=
  if x.scale = 0 then Binary64.ofRatio (x.negative && x.coefficient != 0) x.coefficient 1
  else if x.negative then x.magnitudeToDouble.neg
  else x.magnitudeToDouble

end Numeric

end FilterSql.Postgres

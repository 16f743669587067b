/-
The binary interchange formats of IEEE 754, in natural numbers.

A magnitude is stored as a pattern: the biased exponent above the fraction.  Patterns
are in the order of the values they stand for, so the nearest value to a quotient is
found by rounding one integer quotient, and a carry runs into the exponent by itself.
-/

namespace FilterSql

/-- The nearest natural number to `num / den`; a half goes to the even neighbour. -/
def roundHalfEven (num den : Nat) : Nat :=
  let quotient := num / den
  let rest := num % den
  if 2 * rest < den then quotient
  else if den < 2 * rest then quotient + 1
  else if quotient % 2 = 0 then quotient
  else quotient + 1

/-- The largest `e` with `2 ^ e ≤ num / den`, for positive numbers. -/
def floorLog2 (num den : Nat) : Int :=
  let guess : Int := (Nat.log2 num : Int) - (Nat.log2 den : Int)
  if num * Nat.pow 2 (-guess).toNat < den * Nat.pow 2 guess.toNat then guess - 1 else guess

/-- A format: how many bits hold the fraction and how many the exponent. -/
structure BinaryFormat where
  fractionWidth : Nat
  exponentWidth : Nat

namespace BinaryFormat

/-- Single precision. -/
def binary32 : BinaryFormat := ⟨23, 8⟩

/-- Double precision. -/
def binary64 : BinaryFormat := ⟨52, 11⟩

variable (format : BinaryFormat)

/-- One more than the largest fraction. -/
def fractionBound : Nat :=
  Nat.pow 2 format.fractionWidth

/-- The weight of the sign bit, one more than the largest pattern of a magnitude. -/
def signWeight : Nat :=
  Nat.pow 2 (format.fractionWidth + format.exponentWidth)

/-- The pattern of infinity; larger patterns are not numbers. -/
def infinity : Nat :=
  (Nat.pow 2 format.exponentWidth - 1) * format.fractionBound

/-- The first pattern of a quiet not-a-number. -/
def quietNan : Nat :=
  format.infinity + format.fractionBound / 2

/-- The exponent of the least positive value. -/
def leastExponent : Int :=
  2 - Nat.pow 2 (format.exponentWidth - 1) - format.fractionWidth

/-- The whole number that is scaled by a power of two to give the value. -/
def mantissa (pattern : Nat) : Nat :=
  if pattern / format.fractionBound = 0 then pattern
  else format.fractionBound + pattern % format.fractionBound

/-- The power of two that scales the mantissa. -/
def exponent (pattern : Nat) : Int :=
  format.leastExponent + ((pattern / format.fractionBound - 1 : Nat) : Int)

/-- The value of a finite pattern as a fraction. -/
def ratio (pattern : Nat) : Nat × Nat :=
  let e := format.exponent pattern
  (format.mantissa pattern * Nat.pow 2 e.toNat, Nat.pow 2 (-e).toNat)

/-- The pattern nearest to `num / den`, ties to even, infinity past the largest. -/
def nearest (num den : Nat) : Nat :=
  if num = 0 then 0
  else
    let e := max format.leastExponent (floorLog2 num den - format.fractionWidth)
    let units := roundHalfEven (num * Nat.pow 2 (-e).toNat) (den * Nat.pow 2 e.toNat)
    min format.infinity ((e - format.leastExponent).toNat * format.fractionBound + units)

end BinaryFormat

end FilterSql

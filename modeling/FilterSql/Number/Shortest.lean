/-
The shortest decimal that reads back as a given double.

The decimals that round to a double form an interval around it, ends included when the
mantissa is even.  For one, two, … seventeen digits the two neighbours of the value on
that decimal grid are tried; the first grid with a neighbour in the interval wins, and
of two neighbours the nearer.  An exact tie is the business of the format that asks.
-/
import FilterSql.Number.Binary64

namespace FilterSql

/-- A decimal `digits × 10 ^ exponent`. -/
structure Decimal where
  digits : Nat
  exponent : Int
deriving DecidableEq, Inhabited

/-- Where an exact tie between two equally close decimals goes. -/
inductive TieRule
  | up
  | even
deriving DecidableEq

namespace Decimal

/-- Compare `digits × 10 ^ exponent` with the fraction `num / den`. -/
def compareRatio (d : Decimal) (num den : Nat) : Ordering :=
  compare (d.digits * Nat.pow 10 d.exponent.toNat * den) (num * Nat.pow 10 (-d.exponent).toNat)

/-- The exponent of the first digit of `num / den`, a positive fraction. -/
def leadingExponent (num den : Nat) : Int :=
  if den ≤ num then (Binary64.decimalLength (num / den) : Int) - 1
  else -(Binary64.decimalLength ((den - 1) / num) : Int)

/-- The decimals that read back as one double: two ends over a common denominator. -/
structure Interval where
  low : Nat
  value : Nat
  high : Nat
  den : Nat
  closed : Bool

namespace Interval

/-- The interval of a finite, positive pattern.  Below a power of two the gap to the
next lower double is half as wide. -/
def ofPattern (pattern : Nat) : Interval :=
  let format := BinaryFormat.binary64
  let m := format.mantissa pattern
  let e := format.exponent pattern - 2
  let below := if m = format.fractionBound ∧ format.leastExponent < e + 2 then 1 else 2
  let scale := Nat.pow 2 e.toNat
  { low := (4 * m - below) * scale
    value := 4 * m * scale
    high := (4 * m + 2) * scale
    den := Nat.pow 2 (-e).toNat
    closed := m % 2 == 0 }

/-- Whether a decimal lies in the interval. -/
def holds (interval : Interval) (d : Decimal) : Bool :=
  match d.compareRatio interval.low interval.den, d.compareRatio interval.high interval.den with
  | .gt, .lt => true
  | .eq, .lt => interval.closed
  | .gt, .eq => interval.closed
  | .eq, .eq => interval.closed
  | _, _ => false

/-- The two neighbours of the value among the multiples of `10 ^ exponent`. -/
def neighbours (interval : Interval) (exponent : Int) : Decimal × Decimal :=
  let digits :=
    (interval.value * Nat.pow 10 (-exponent).toNat) / (interval.den * Nat.pow 10 exponent.toNat)
  (⟨digits, exponent⟩, ⟨digits + 1, exponent⟩)

/-- The nearer of two neighbours: twice the value against their sum. -/
def nearer (interval : Interval) (tie : TieRule) (lower upper : Decimal) : Decimal :=
  let middle : Decimal := ⟨lower.digits + upper.digits, lower.exponent⟩
  match middle.compareRatio (2 * interval.value) interval.den with
  | .gt => lower
  | .lt => upper
  | .eq =>
      match tie with
      | .up => upper
      | .even => if lower.digits % 2 = 0 then lower else upper

/-- The decimal to take on one grid, when a neighbour reads back. -/
def hit? (interval : Interval) (tie : TieRule) (exponent : Int) : Option Decimal :=
  let (lower, upper) := interval.neighbours exponent
  match interval.holds lower, interval.holds upper with
  | true, true => some (interval.nearer tie lower upper)
  | true, false => some lower
  | false, true => some upper
  | false, false => none

end Interval

/-- The decimal with the zeros at the end of its digits moved into the exponent. -/
def normalize (d : Decimal) : Decimal :=
  go (Binary64.decimalLength d.digits) d
where
  go : Nat → Decimal → Decimal
    | 0, d => d
    | fuel + 1, d =>
        if d.digits ≠ 0 ∧ d.digits % 10 = 0 then go fuel ⟨d.digits / 10, d.exponent + 1⟩ else d

/-- The shortest decimal that reads back as the finite double, zero for zero. -/
def shortest (tie : TieRule) (x : Binary64) : Decimal :=
  if x.isZero then ⟨0, 0⟩
  else
    let interval := Interval.ofPattern x.pattern
    let lead := leadingExponent interval.value interval.den
    let grids := (List.range 17).map fun (n : Nat) => lead - (n : Int)
    match grids.findSome? (interval.hit? tie) with
    | some d => d.normalize
    | none => (interval.neighbours (lead - 16)).1.normalize

end Decimal

end FilterSql

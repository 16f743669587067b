/-
Bytes read back.

The bytes of an integer that fits into them, and those of a text, are read as what they were
written for.
-/
import Mathlib.Algebra.Order.Ring.Int
import FilterSql.Postgres.Bytes

namespace FilterSql.Postgres.Bytes

@[simp] theorem length_ofInt (width : Nat) (n : Int) : (ofInt width n).length = width :=
  length_ofNat width _

theorem toNat_ofInt (width : Nat) (n : Int) :
    (toNat (ofInt width n) : Int) = n % ((256 ^ width : Nat) : Int) := by
  have hpos : (0 : Int) < ((256 ^ width : Nat) : Int) := by
    exact_mod_cast Nat.pow_pos (by decide : 0 < 256)
  have hlow := Int.emod_nonneg n (Int.ne_of_gt hpos)
  have hhigh := Int.emod_lt_of_pos n hpos
  rw [ofInt, toNat_ofNat, Nat.pow_eq, Nat.mod_eq_of_lt (by omega)]
  exact Int.toNat_of_nonneg hlow

/-- Two's complement is read back within its range. -/
theorem toInt?_ofInt {width : Nat} {n : Int} (hlow : -((256 ^ width : Nat) : Int) ≤ n * 2)
    (hhigh : n * 2 < ((256 ^ width : Nat) : Int)) : toInt? width (ofInt width n) = some n := by
  rw [toInt?, if_pos (length_ofInt width n), toNat_ofInt, Nat.pow_eq, Int.emod_bmod,
    Int.bmod_eq_of_le_mul_two hlow hhigh]

/-- A text is read back from its bytes. -/
@[simp] theorem toText?_ofText (s : String) : toText? (ofText s) = some s := by
  have hbytes : (ofText s).toByteArray = s.toByteArray := by
    rw [ofText]
    exact ByteArray.ext (by simp)
  rw [toText?, hbytes, String.fromUTF8?, dif_pos s.isValidUTF8]
  rfl

end FilterSql.Postgres.Bytes

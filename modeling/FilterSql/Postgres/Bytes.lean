/-
Numbers as bytes, the most significant byte first.

An integer of some bytes is written in two's complement.  Reading takes exactly as many
bytes as were written.
-/

namespace FilterSql.Postgres

/-- Bytes of a message. -/
abbrev Bytes := List UInt8

namespace Bytes

/-- The last `width` bytes of a natural number. -/
def ofNat (width n : Nat) : Bytes :=
  match width with
  | 0 => []
  | width + 1 => ofNat width (n / 256) ++ [UInt8.ofNat (n % 256)]

/-- The natural number that bytes write. -/
def toNat (bytes : Bytes) : Nat :=
  bytes.foldl (fun n byte => n * 256 + byte.toNat) 0

@[simp] theorem length_ofNat (width n : Nat) : (ofNat width n).length = width := by
  induction width generalizing n with
  | zero => rfl
  | succ width ih => simp [ofNat, ih]

theorem toNat_append (bytes : Bytes) (byte : UInt8) :
    toNat (bytes ++ [byte]) = toNat bytes * 256 + byte.toNat := by
  simp [toNat]

theorem toNat_ofNat (width n : Nat) : toNat (ofNat width n) = n % Nat.pow 256 width := by
  induction width generalizing n with
  | zero => simp [ofNat, toNat, Nat.mod_one]
  | succ width ih =>
      rw [ofNat, toNat_append, ih]
      have hbyte : (UInt8.ofNat (n % 256)).toNat = n % 256 := by
        simp
      rw [hbyte, Nat.pow_eq, Nat.pow_eq, Nat.pow_succ, Nat.mul_comm (256 ^ width) 256,
        Nat.mod_mul, Nat.mul_comm, Nat.add_comm]

/-- An integer in two's complement. -/
def ofInt (width : Nat) (n : Int) : Bytes :=
  ofNat width (n % (Nat.pow 256 width : Nat)).toNat

/-- The integer that `width` bytes write in two's complement. -/
def toInt? (width : Nat) (bytes : Bytes) : Option Int :=
  if bytes.length = width then
    some (Int.bmod (toNat bytes) (Nat.pow 256 width))
  else none

/-- The natural number that `width` bytes write. -/
def toNat? (width : Nat) (bytes : Bytes) : Option Nat :=
  if bytes.length = width then some (toNat bytes) else none

/-- The bytes of a text. -/
def ofText (s : String) : Bytes :=
  s.toByteArray.data.toList

/-- The text that bytes write, when they are valid. -/
def toText? (bytes : Bytes) : Option String :=
  String.fromUTF8? bytes.toByteArray

end Bytes

end FilterSql.Postgres

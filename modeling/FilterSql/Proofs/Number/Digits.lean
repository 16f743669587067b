/-
Decimal digits.

A number that is written in digits has no zero before them, and a text has no room for a
number of more digits than it has characters.  The texts that are read as integers are digits
with at most one sign before them.
-/
import Mathlib.Tactic.IntervalCases
import FilterSql.Number.Reader

namespace FilterSql.Number

open FilterSql.Text (isAsciiDigit)

theorem digit_lt_ten {c : Char} (hdigit : isAsciiDigit c = true) : c.toNat - '0'.toNat < 10 := by
  have hle : c ≤ '9' := by
    simp only [isAsciiDigit, Bool.and_eq_true, decide_eq_true_eq] at hdigit
    exact hdigit.2
  have hnat : c.toNat ≤ '9'.toNat := hle
  have hnine : '9'.toNat = '0'.toNat + 9 := rfl
  omega

theorem isAsciiDigit_of_mem_toDigits {n : Nat} {c : Char} (hc : c ∈ Nat.toDigits 10 n) :
    isAsciiDigit c = true := by
  have hdigit : c.isDigit = true := Nat.isDigit_of_mem_toDigits (by decide) (by decide) hc
  simp only [Char.isDigit, Bool.and_eq_true, decide_eq_true_eq] at hdigit
  simp only [isAsciiDigit, Bool.and_eq_true, decide_eq_true_eq]
  exact hdigit

/-- Only zero starts with a zero. -/
theorem head?_toDigits_ne {n : Nat} (hn : 0 < n) : (Nat.toDigits 10 n).head? ≠ some '0' := by
  induction n using Nat.strongRecOn with
  | ind n ih =>
      rcases Nat.lt_or_ge n 10 with hsmall | hlarge
      · rw [Nat.toDigits_of_lt_base hsmall]
        interval_cases n <;> decide
      · rw [Nat.toDigits_of_base_le (by decide) hlarge, List.head?_append]
        have hhigh := ih (n / 10) (by omega) (by omega)
        cases hdigits : Nat.toDigits 10 (n / 10) with
        | nil => exact absurd hdigits Nat.toDigits_ne_nil
        | cons c cs =>
            rw [hdigits] at hhigh
            exact hhigh

theorem ofDigitChars_lt {cs : List Char} (hdigits : cs.all isAsciiDigit = true) :
    Nat.ofDigitChars 10 cs 0 < 10 ^ cs.length := by
  induction cs with
  | nil => simp
  | cons c cs ih =>
      rw [List.all_cons, Bool.and_eq_true] at hdigits
      have hhead := digit_lt_ten hdigits.1
      have htail := ih hdigits.2
      rw [Nat.ofDigitChars_cons, Nat.ofDigitChars_eq_ofDigitChars_zero, List.length_cons,
        Nat.pow_succ]
      have hweight : 10 ^ cs.length * (10 * 0 + (c.toNat - '0'.toNat)) ≤ 10 ^ cs.length * 9 :=
        Nat.mul_le_mul_left _ (by omega)
      omega

theorem eq_of_digit_eq {c d : Char} (hc : isAsciiDigit c = true) (hd : isAsciiDigit d = true)
    (hsame : c.toNat - '0'.toNat = d.toNat - '0'.toNat) : c = d := by
  have hzero : ∀ {e : Char}, isAsciiDigit e = true → '0'.toNat ≤ e.toNat := by
    intro e he
    simp only [isAsciiDigit, Bool.and_eq_true, decide_eq_true_eq] at he
    exact he.1
  have hleft := hzero hc
  have hright := hzero hd
  rw [← Char.toNat_inj]
  omega

/-- Digits are known by their number and their value. -/
theorem ofDigitChars_inj {first second : List Char} (hlength : first.length = second.length)
    (hfirst : ∀ c ∈ first, isAsciiDigit c = true) (hsecond : ∀ c ∈ second, isAsciiDigit c = true)
    (hvalue : Nat.ofDigitChars 10 first 0 = Nat.ofDigitChars 10 second 0) : first = second := by
  induction first generalizing second with
  | nil => exact (List.eq_nil_of_length_eq_zero hlength.symm).symm
  | cons c first ih =>
      cases second with
      | nil => cases hlength
      | cons d second =>
          rw [List.forall_mem_cons] at hfirst hsecond
          have hrest : first.length = second.length := Nat.succ.inj hlength
          have hlow := ofDigitChars_lt (List.all_eq_true.mpr hfirst.2)
          have hhigh := ofDigitChars_lt (List.all_eq_true.mpr hsecond.2)
          rw [Nat.ofDigitChars_cons, Nat.ofDigitChars_cons, Nat.ofDigitChars_eq_ofDigitChars_zero,
            Nat.ofDigitChars_eq_ofDigitChars_zero (l := second), ← hrest] at hvalue
          rw [← hrest] at hhigh
          -- The first digit is the quotient by a power of ten, and the other digits are the rest.
          have hpower : 0 < 10 ^ first.length := Nat.pow_pos (by decide)
          have hhead := congrArg (· / 10 ^ first.length) hvalue
          have htail := congrArg (· % 10 ^ first.length) hvalue
          simp only [Nat.mul_add_div hpower, Nat.div_eq_of_lt hlow, Nat.div_eq_of_lt hhigh,
            Nat.mul_zero, Nat.zero_add, Nat.add_zero] at hhead
          simp only [Nat.mul_add_mod, Nat.mod_eq_of_lt hlow, Nat.mod_eq_of_lt hhigh] at htail
          rw [eq_of_digit_eq hfirst.1 hsecond.1 hhead, ih hrest hfirst.2 hsecond.2 htail]

theorem readDigits?_lt {cs : List Char} {n : Nat} (hn : readDigits? cs = some n) :
    n < 10 ^ cs.length := by
  rw [readDigits?] at hn
  split at hn
  next hdigits =>
    cases hn
    exact ofDigitChars_lt (Bool.and_eq_true_iff.mp hdigits).2
  · cases hn

theorem length_splitSign_le (cs : List Char) : (splitSign cs).2.length ≤ cs.length := by
  unfold splitSign
  split <;> simp

theorem natAbs_readInt?_lt {cs : List Char} {n : Int} (hn : readInt? cs = some n) :
    n.natAbs < 10 ^ cs.length := by
  obtain ⟨signed, hsigned, hn⟩ := Option.map_eq_some_iff.mp hn
  obtain ⟨magnitude, hmagnitude, hcast⟩ := Option.bind_eq_some_iff.mp hsigned
  cases hcast
  have habs : n.natAbs = magnitude := by
    rw [← hn]
    split <;> simp
  calc n.natAbs = magnitude := habs
    _ < 10 ^ (splitSign cs).2.length := readDigits?_lt hmagnitude
    _ ≤ 10 ^ cs.length := Nat.pow_le_pow_right (by decide) (length_splitSign_le cs)

/-- One or more decimal digits. -/
def IsDigits (cs : List Char) : Prop :=
  cs ≠ [] ∧ ∀ c ∈ cs, isAsciiDigit c = true

/-- A text writes an integer: in decimal digits, perhaps with a sign before them. -/
inductive Writes : List Char → Int → Prop
  | plain {digits : List Char} (hdigits : IsDigits digits) :
      Writes digits (Nat.ofDigitChars 10 digits 0)
  | plus {digits : List Char} (hdigits : IsDigits digits) :
      Writes ('+' :: digits) (Nat.ofDigitChars 10 digits 0)
  | minus {digits : List Char} (hdigits : IsDigits digits) :
      Writes ('-' :: digits) (-(Nat.ofDigitChars 10 digits 0 : Int))

theorem readDigits?_eq_some_iff {cs : List Char} {n : Nat} :
    readDigits? cs = some n ↔ IsDigits cs ∧ Nat.ofDigitChars 10 cs 0 = n := by
  simp [readDigits?, IsDigits]

theorem readInt?_eq_map (cs : List Char) :
    readInt? cs = (readDigits? (splitSign cs).2).map fun n : Nat =>
      if (splitSign cs).1 then -(n : Int) else n := by
  show ((readDigits? (splitSign cs).2).bind _).map _ = _
  cases readDigits? (splitSign cs).2 <;> rfl

theorem splitSign_of_isDigits {cs : List Char} (hdigits : IsDigits cs) :
    splitSign cs = (false, cs) := by
  unfold splitSign
  split
  · exact absurd (hdigits.2 '-' List.mem_cons_self) (by decide)
  · exact absurd (hdigits.2 '+' List.mem_cons_self) (by decide)
  · rfl

/-- The reader of integers accepts the texts that write one. -/
theorem readInt?_eq_some_iff {cs : List Char} {n : Int} :
    readInt? cs = some n ↔ Writes cs n := by
  rw [readInt?_eq_map]
  constructor
  · intro hread
    obtain ⟨magnitude, hmagnitude, rfl⟩ := Option.map_eq_some_iff.mp hread
    obtain ⟨hdigits, rfl⟩ := readDigits?_eq_some_iff.mp hmagnitude
    unfold splitSign at hdigits ⊢
    split at hdigits
    · exact .minus hdigits
    · exact .plus hdigits
    · exact .plain hdigits
  · intro hwrites
    apply Option.map_eq_some_iff.mpr
    cases hwrites with
    | plain hdigits =>
        rw [splitSign_of_isDigits hdigits]
        exact ⟨_, readDigits?_eq_some_iff.mpr ⟨hdigits, rfl⟩, rfl⟩
    | plus hdigits | minus hdigits =>
        exact ⟨_, readDigits?_eq_some_iff.mpr ⟨hdigits, rfl⟩, rfl⟩

theorem readInt?_of_isDigits {cs : List Char} (hdigits : IsDigits cs) :
    readInt? cs = some (Nat.ofDigitChars 10 cs 0 : Int) :=
  readInt?_eq_some_iff.mpr (.plain hdigits)

end FilterSql.Number

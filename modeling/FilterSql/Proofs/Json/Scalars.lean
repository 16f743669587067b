/-
Numbers and texts of JSON read back.

A number is read to its end when nothing follows that could go on with it, and a text is
read up to its closing quote, each escape as the character that it stands for.  So what is
written in front of a comma, a bracket or a brace is read as what it was written for.
-/
import FilterSql.Json.Document
import FilterSql.Proofs.Number.Digits
import FilterSql.Proofs.Text.Cuts

namespace FilterSql.Document

open FilterSql.Number (splitSign)
open FilterSql.Text (isAsciiDigit takeWhile_append_of_head dropWhile_append_of_head)

/-- A character that may go on with a number. -/
def isNumberChar (c : Char) : Bool :=
  isAsciiDigit c || c == '.' || c == 'e' || c == 'E' || c == '+' || c == '-'

/-- No number can go on at the front of a text. -/
def EndsNumber (rest : List Char) : Prop :=
  ∀ c ∈ rest.head?, isNumberChar c = false

section Numbers

variable {rest : List Char}

theorem EndsNumber.head (hrest : EndsNumber rest) {c : Char} (hc : c ∈ rest.head?) :
    isAsciiDigit c = false ∧ c ≠ '.' ∧ c ≠ 'e' ∧ c ≠ 'E' ∧ c ≠ '+' ∧ c ≠ '-' := by
  simpa [isNumberChar, and_assoc] using hrest c hc

theorem EndsNumber.head_not_digit (hrest : EndsNumber rest) :
    ∀ c ∈ rest.head?, isAsciiDigit c = false :=
  fun _ hc => (hrest.head hc).1

theorem readFraction?_cons_of_ne {c : Char} (hpoint : c ≠ '.') (cs : List Char) :
    readFraction? (c :: cs) = some ([], c :: cs) := by
  unfold readFraction?
  split
  next heq => exact absurd (List.cons.inj heq).1 hpoint
  next => rfl

theorem readFraction?_append (cs : List Char) (hrest : EndsNumber rest) :
    readFraction? (cs ++ rest) =
      (readFraction? cs).map fun (fraction, after) => (fraction, after ++ rest) := by
  cases cs with
  | nil =>
      cases rest with
      | nil => rfl
      | cons d rest => exact readFraction?_cons_of_ne (hrest.head rfl).2.1 rest
  | cons c cs =>
      rw [List.cons_append]
      by_cases hpoint : c = '.'
      · subst hpoint
        simp only [readFraction?, takeWhile_append_of_head cs hrest.head_not_digit,
          dropWhile_append_of_head cs hrest.head_not_digit]
        split <;> rfl
      · rw [readFraction?_cons_of_ne hpoint, readFraction?_cons_of_ne hpoint]
        rfl

theorem readExponentDigits?_append (negative : Bool) (cs : List Char) (hrest : EndsNumber rest) :
    readExponentDigits? negative (cs ++ rest) =
      (readExponentDigits? negative cs).map fun (exponent, after) => (exponent, after ++ rest) := by
  simp only [readExponentDigits?, takeWhile_append_of_head cs hrest.head_not_digit,
    dropWhile_append_of_head cs hrest.head_not_digit]
  split <;> rfl

theorem splitSign_cons_of_ne {c : Char} (hplus : c ≠ '+') (hminus : c ≠ '-') (cs : List Char) :
    splitSign (c :: cs) = (false, c :: cs) := by
  unfold splitSign
  split
  next heq => exact absurd (List.cons.inj heq).1 hminus
  next heq => exact absurd (List.cons.inj heq).1 hplus
  next => rfl

theorem splitSign_append (cs : List Char) (hrest : EndsNumber rest) :
    splitSign (cs ++ rest) = ((splitSign cs).1, (splitSign cs).2 ++ rest) := by
  cases cs with
  | nil =>
      cases rest with
      | nil => rfl
      | cons d rest =>
          obtain ⟨-, -, -, -, hplus, hminus⟩ := hrest.head rfl
          exact splitSign_cons_of_ne hplus hminus rest
  | cons c cs =>
      rw [List.cons_append]
      by_cases hminus : c = '-'
      · subst hminus
        rfl
      by_cases hplus : c = '+'
      · subst hplus
        rfl
      rw [splitSign_cons_of_ne hplus hminus, splitSign_cons_of_ne hplus hminus]
      rfl

/-- The digits of an exponent stand after its mark and a sign, if there is one. -/
theorem readExponent?_cons {c : Char} (hmark : c = 'e' ∨ c = 'E') (cs : List Char) :
    readExponent? (c :: cs) = readExponentDigits? (splitSign cs).1 (splitSign cs).2 := by
  unfold readExponent?
  simp only [if_pos hmark]
  split
  · rfl
  · rfl
  next hminus hplus =>
    cases cs with
    | nil => rfl
    | cons d cs =>
        rw [splitSign_cons_of_ne (fun hd => hplus cs (hd ▸ rfl)) fun hd => hminus cs (hd ▸ rfl)]

theorem readExponent?_cons_of_ne {c : Char} (hmark : ¬(c = 'e' ∨ c = 'E')) (cs : List Char) :
    readExponent? (c :: cs) = some (none, c :: cs) := by
  unfold readExponent?
  simp only [if_neg hmark]

theorem readExponent?_append (cs : List Char) (hrest : EndsNumber rest) :
    readExponent? (cs ++ rest) =
      (readExponent? cs).map fun (exponent, after) => (exponent, after ++ rest) := by
  cases cs with
  | nil =>
      cases rest with
      | nil => rfl
      | cons d rest =>
          obtain ⟨-, -, hlower, hupper, -⟩ := hrest.head rfl
          exact readExponent?_cons_of_ne (not_or.mpr ⟨hlower, hupper⟩) rest
  | cons c cs =>
      rw [List.cons_append]
      by_cases hmark : c = 'e' ∨ c = 'E'
      · rw [readExponent?_cons hmark, readExponent?_cons hmark, splitSign_append cs hrest,
          readExponentDigits?_append _ _ hrest]
      · rw [readExponent?_cons_of_ne hmark, readExponent?_cons_of_ne hmark]
        rfl

/-- A number is read to its end, whatever follows it. -/
theorem readMagnitude_append {negative : Bool} {cs after : List Char} {n : JsonNumber}
    (hread : readMagnitude negative cs = (number n, after)) (hrest : EndsNumber rest) :
    readMagnitude negative (cs ++ rest) = (number n, after ++ rest) := by
  simp only [readMagnitude, takeWhile_append_of_head cs hrest.head_not_digit,
    dropWhile_append_of_head cs hrest.head_not_digit, readFraction?_append _ hrest] at hread ⊢
  split at hread
  · cases hread
  next hwhole =>
    rw [if_neg hwhole]
    cases hfraction : readFraction? (cs.dropWhile isAsciiDigit) with
    | none => simp [hfraction] at hread
    | some found =>
        simp only [hfraction, Option.map_some, readExponent?_append _ hrest] at hread ⊢
        cases hexponent : readExponent? found.2 with
        | none => simp [hexponent] at hread
        | some ending =>
            obtain ⟨exponent, last⟩ := ending
            simp only [hexponent, Option.map_some] at hread ⊢
            cases exponent with
            | none =>
                dsimp only at hread ⊢
                split at hread
                next hempty =>
                  obtain ⟨hvalue, rfl⟩ := Prod.mk.inj hread
                  rw [if_pos hempty, hvalue]
                next hempty =>
                  obtain ⟨hvalue, rfl⟩ := Prod.mk.inj hread
                  rw [if_neg hempty, hvalue]
            | some exponent =>
                dsimp only at hread ⊢
                obtain ⟨hvalue, rfl⟩ := Prod.mk.inj hread
                rw [hvalue]

theorem readNumber_of_ne {c : Char} (hminus : c ≠ '-') (cs : List Char) :
    readNumber (c :: cs) = readMagnitude false (c :: cs) := by
  unfold readNumber
  split
  next heq => exact absurd (List.cons.inj heq).1 hminus
  · rfl

theorem readNumber_append {cs after : List Char} {n : JsonNumber}
    (hread : readNumber cs = (number n, after)) (hrest : EndsNumber rest) :
    readNumber (cs ++ rest) = (number n, after ++ rest) := by
  cases cs with
  | nil => cases hread
  | cons c cs =>
      rw [List.cons_append]
      by_cases hminus : c = '-'
      · subst hminus
        exact readMagnitude_append hread hrest
      · rw [readNumber_of_ne hminus] at hread ⊢
        exact readMagnitude_append hread hrest

/-- The first character of a number. -/
def startsNumber (c : Char) : Bool :=
  isAsciiDigit c || c == '-'

theorem startsNumber_of_readMagnitude {negative : Bool} {cs after : List Char} {n : JsonNumber}
    (hread : readMagnitude negative cs = (number n, after)) :
    ∃ c tail, cs = c :: tail ∧ isAsciiDigit c = true := by
  cases cs with
  | nil => cases hread
  | cons c cs =>
      refine ⟨c, cs, rfl, ?_⟩
      by_contra hdigit
      have hwhole : (c :: cs).takeWhile isAsciiDigit = [] := by
        rw [List.takeWhile_cons, if_neg hdigit]
      rw [readMagnitude, hwhole] at hread
      cases hread

theorem startsNumber_of_readNumber {cs after : List Char} {n : JsonNumber}
    (hread : readNumber cs = (number n, after)) :
    ∃ c tail, cs = c :: tail ∧ startsNumber c = true := by
  cases cs with
  | nil => cases hread
  | cons c cs =>
      refine ⟨c, cs, rfl, ?_⟩
      by_cases hminus : c = '-'
      · subst hminus
        rfl
      · rw [readNumber_of_ne hminus] at hread
        obtain ⟨d, tail, heq, hdigit⟩ := startsNumber_of_readMagnitude hread
        cases heq
        simp [startsNumber, hdigit]

/-- The digits of a natural number are read as a whole number. -/
theorem readMagnitude_toDigits (negative : Bool) (n : Nat) :
    readMagnitude negative (Nat.toDigits 10 n) = (integer negative (Nat.toDigits 10 n), []) := by
  have hdigits : ∀ c ∈ Nat.toDigits 10 n, isAsciiDigit c = true :=
    fun c hc => Number.isAsciiDigit_of_mem_toDigits hc
  have hwhole : (Nat.toDigits 10 n).takeWhile isAsciiDigit = Nat.toDigits 10 n := by
    rw [List.takeWhile_eq_self_iff]
    exact hdigits
  have hafter : (Nat.toDigits 10 n).dropWhile isAsciiDigit = [] :=
    List.dropWhile_eq_nil_iff.mpr hdigits
  have hzero : ((Nat.toDigits 10 n).isEmpty || ((Nat.toDigits 10 n).head? == some '0' &&
      decide (1 < (Nat.toDigits 10 n).length))) = false := by
    rcases Nat.eq_zero_or_pos n with rfl | hpos
    · rfl
    · simp [Number.head?_toDigits_ne hpos]
  simp only [readMagnitude, hwhole, hafter, hzero]
  rfl

theorem integer_toDigits {n : Nat} (hn : n < 2 ^ 64) :
    integer false (Nat.toDigits 10 n) = number (.whole n) := by
  simp only [integer, Nat.ofDigitChars_ten_toDigits]
  exact (if_neg Bool.false_ne_true).trans (if_pos hn)

theorem integer_toDigits_of_negative {n : Nat} (hpos : 0 < n) (hn : n ≤ 2 ^ 63) :
    integer true (Nat.toDigits 10 n) = number (.whole (-(n : Int))) := by
  simp only [integer, Nat.ofDigitChars_ten_toDigits]
  exact (if_pos trivial).trans (if_pos ⟨hpos, hn⟩)

/-- A whole number that 64 bits hold is read back. -/
theorem readNumber_intChars {n : Int} (hlow : -2 ^ 63 ≤ n) (hhigh : n < 2 ^ 64) :
    readNumber (intChars n) = (number (.whole n), []) := by
  rcases Int.lt_or_le n 0 with hnegative | hpositive
  · have hvalue : -(n.natAbs : Int) = n := by omega
    have hchars : intChars n = '-' :: Nat.toDigits 10 n.natAbs := by
      rw [intChars, if_pos hnegative]
      rfl
    calc readNumber (intChars n) = readMagnitude true (Nat.toDigits 10 n.natAbs) := by
          rw [hchars]
          rfl
      _ = (integer true (Nat.toDigits 10 n.natAbs), []) := readMagnitude_toDigits true _
      _ = (number (.whole n), []) := by
          rw [integer_toDigits_of_negative (by omega) (by omega), hvalue]
  · have hvalue : (n.natAbs : Int) = n := by omega
    have hchars : intChars n = Nat.toDigits 10 n.natAbs := by
      rw [intChars, if_neg (by omega)]
      rfl
    have hplain : readNumber (Nat.toDigits 10 n.natAbs) =
        readMagnitude false (Nat.toDigits 10 n.natAbs) := by
      cases hdigits : Nat.toDigits 10 n.natAbs with
      | nil => rfl
      | cons c cs =>
          refine readNumber_of_ne ?_ cs
          rintro rfl
          have hmem : '-' ∈ Nat.toDigits 10 n.natAbs := by
            rw [hdigits]
            exact List.mem_cons_self
          exact absurd (Number.isAsciiDigit_of_mem_toDigits hmem) (by decide)
    calc readNumber (intChars n) = readMagnitude false (Nat.toDigits 10 n.natAbs) := by
          rw [hchars, hplain]
      _ = (integer false (Nat.toDigits 10 n.natAbs), []) := readMagnitude_toDigits false _
      _ = (number (.whole n), []) := by
          rw [integer_toDigits (by omega), hvalue]

end Numbers

section Texts

theorem hexUnit?_hexDigit {n : Nat} (hn : n < 0x20) :
    hexUnit? '0' '0' (Json.hexDigit (n / 16)) (Json.hexDigit (n % 16)) = some n := by
  revert n
  decide

theorem readPoints?_escaped {c : Char} {point : Nat} (hunicode : c ≠ 'u')
    (hpoint : escaped? c = some point) (cs : List Char) :
    readPoints? ('\\' :: c :: cs) =
      (readPoints? cs).map fun (points, rest) => (point :: points, rest) := by
  rw [readPoints?, hpoint]
  · cases readPoints? cs <;> rfl
  · exact fun _ _ _ _ _ heq => absurd heq hunicode

theorem readPoints?_unicode {point : Nat} (hpoint : point < 0x20) (cs : List Char) :
    readPoints? ('\\' :: 'u' :: '0' :: '0' :: Json.hexDigit (point / 16) ::
        Json.hexDigit (point % 16) :: cs) =
      (readPoints? cs).map fun (points, rest) => (point :: points, rest) := by
  rw [readPoints?, hexUnit?_hexDigit hpoint]
  cases readPoints? cs <;> rfl

theorem readPoints?_plain {c : Char} (hquote : c ≠ '"') (hslash : c ≠ '\\')
    (hprintable : ¬c.toNat < 0x20) (cs : List Char) :
    readPoints? (c :: cs) =
      (readPoints? cs).map fun (points, rest) => (c.toNat :: points, rest) := by
  rw [readPoints?]
  · rw [if_neg (not_or.mpr ⟨hslash, hprintable⟩)]
  · exact hquote
  · exact fun _ _ _ _ _ heq => absurd heq hslash
  · exact fun _ _ heq => absurd heq hslash

/-- A character is read back from its place in a text. -/
theorem readPoints?_escapeChar (c : Char) (cs : List Char) :
    readPoints? (Json.escapeChar c ++ cs) =
      (readPoints? cs).map fun (points, rest) => (c.toNat :: points, rest) := by
  unfold Json.escapeChar
  split_ifs with hquote hslash hback htab hline hfeed hreturn hlow
  · subst hquote
    exact readPoints?_escaped (by decide) rfl cs
  · subst hslash
    exact readPoints?_escaped (by decide) rfl cs
  · subst hback
    exact readPoints?_escaped (by decide) rfl cs
  · subst htab
    exact readPoints?_escaped (by decide) rfl cs
  · subst hline
    exact readPoints?_escaped (by decide) rfl cs
  · subst hfeed
    exact readPoints?_escaped (by decide) rfl cs
  · subst hreturn
    exact readPoints?_escaped (by decide) rfl cs
  · exact readPoints?_unicode hlow cs
  · exact readPoints?_plain hquote hslash hlow cs

/-- A text is read up to its closing quote. -/
theorem readPoints?_flatMap_escapeChar (text rest : List Char) :
    readPoints? (text.flatMap Json.escapeChar ++ '"' :: rest) =
      some (text.map Char.toNat, rest) := by
  induction text with
  | nil => rfl
  | cons c text ih =>
      rw [List.flatMap_cons, List.append_assoc, readPoints?_escapeChar, ih]
      rfl

theorem joinPoints?_toNat (text : List Char) : joinPoints? (text.map Char.toNat) = some text := by
  induction text with
  | nil => rfl
  | cons c text ih =>
      have hvalid : c.toNat < 0xD800 ∨ 0xDFFF < c.toNat ∧ c.toNat < 0x110000 := c.valid
      rw [List.map_cons]
      unfold joinPoints?
      rw [if_neg (by omega), if_neg (by omega), ih, Char.ofNat_toNat]
      rfl

theorem readString_flatMap_escapeChar (s : String) (rest : List Char) :
    readString (s.toList.flatMap Json.escapeChar ++ '"' :: rest) = (string s, rest) := by
  simp only [readString, readPoints?_flatMap_escapeChar, joinPoints?_toNat, String.ofList_toList]

/-- A name with its colon is read back. -/
theorem readLabel?_quote (name : String) (rest : List Char) :
    readLabel? (Json.quote name.toList ++ ':' :: rest) = some (some name, rest) := by
  have hgap : skipGap (Json.quote name.toList ++ ':' :: rest) =
      '"' :: (name.toList.flatMap Json.escapeChar ++ '"' :: (':' :: rest)) := by
    rw [Json.quote, List.cons_append, List.cons_append, List.append_assoc]
    rfl
  have hcolon : skipGap (':' :: rest) = ':' :: rest := rfl
  simp only [readLabel?, hgap, readKey?, readPoints?_flatMap_escapeChar, joinPoints?_toNat,
    Option.map_some, String.ofList_toList, hcolon]

end Texts

end FilterSql.Document

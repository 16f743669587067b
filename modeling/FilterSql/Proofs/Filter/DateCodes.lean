/-
Days written as codes of digits.

A day has a code of eight digits, and in this century one of six, without the century.  Both
are read as the day.
-/
import FilterSql.Proofs.Filter.ConditionValues
import FilterSql.Proofs.Number.Digits
import FilterSql.Proofs.Text.Cuts

namespace FilterSql

open FilterSql.Text (isAsciiDigit)

/-- The codes of a day: eight digits where the year has four, and six from 2000 to 2099. -/
inductive Date.HasCode (date : Date) : String → Prop
  | long (hyear : 0 ≤ date.year ∧ date.year ≤ 9999) :
      HasCode date (String.ofList
        (padded 4 date.year.toNat ++ (padded 2 date.month ++ padded 2 date.day)))
  | short (hyear : 2000 ≤ date.year ∧ date.year ≤ 2099) :
      HasCode date (String.ofList
        (padded 2 (date.year.toNat - 2000) ++ (padded 2 date.month ++ padded 2 date.day)))

section Padded

variable {width n : Nat}

theorem length_padded (hwidth : 0 < width) (hn : n < 10 ^ width) :
    (padded width n).length = width := by
  have hle : (Nat.toDigits 10 n).length ≤ width :=
    (Nat.length_toDigits_le_iff (by decide) hwidth).mpr hn
  simp only [padded, List.length_append, List.length_replicate]
  omega

theorem isAsciiDigit_of_mem_padded {c : Char} (hc : c ∈ padded width n) :
    isAsciiDigit c = true := by
  rw [padded, List.mem_append] at hc
  obtain hzero | hdigit := hc
  · rw [List.eq_of_mem_replicate hzero]
    rfl
  · exact Number.isAsciiDigit_of_mem_toDigits hdigit

theorem ofDigitChars_padded (width n : Nat) : Nat.ofDigitChars 10 (padded width n) 0 = n := by
  rw [padded, Nat.ofDigitChars_append, Nat.ofDigitChars_replicate_zero, Nat.mul_zero,
    Nat.ofDigitChars_ten_toDigits]

theorem isDigits_padded (width n : Nat) : Number.IsDigits (padded width n) := by
  constructor
  · exact List.append_ne_nil_of_right_ne_nil _ Nat.toDigits_ne_nil
  · exact fun c hc => isAsciiDigit_of_mem_padded hc

theorem readDigits?_padded (width n : Nat) : Number.readDigits? (padded width n) = some n :=
  Number.readDigits?_eq_some_iff.mpr ⟨isDigits_padded width n, ofDigitChars_padded width n⟩

end Padded

theorem isDigits_append_padded (date : Date) {year : List Char} (hyear : Number.IsDigits year) :
    Number.IsDigits (year ++ (padded 2 date.month ++ padded 2 date.day)) := by
  refine ⟨List.append_ne_nil_of_left_ne_nil hyear.1 _, ?_⟩
  intro c hc
  simp only [List.mem_append] at hc
  obtain hc | hc | hc := hc
  · exact hyear.2 c hc
  · exact isAsciiDigit_of_mem_padded hc
  · exact isAsciiDigit_of_mem_padded hc

/-- A code is one or more digits. -/
theorem Date.HasCode.isDigits {date : Date} {code : String} (hcode : date.HasCode code) :
    Number.IsDigits code.toList := by
  cases hcode with
  | long | short =>
      rw [String.toList_ofList]
      exact isDigits_append_padded date (isDigits_padded _ _)

namespace Text

theorem isBlank_of_isAsciiDigit {c : Char} (hdigit : isAsciiDigit c = true) :
    isBlank c = false := by
  have hrange : '0'.toNat ≤ c.toNat ∧ c.toNat ≤ '9'.toNat := by
    simpa [isAsciiDigit, Char.le_def, UInt32.le_iff_toNat_le] using hdigit
  have hzero : '0'.toNat = 48 := rfl
  have hnine : '9'.toNat = 57 := rfl
  simp only [isBlank, Bool.or_eq_false_iff, Bool.and_eq_false_iff, beq_eq_false_iff_ne,
    decide_eq_false_iff_not]
  omega

theorem trim_of_digits {cs : List Char} (hdigits : ∀ c ∈ cs, isAsciiDigit c = true) :
    trim cs = cs :=
  strip_of_forall fun c hc => isBlank_of_isAsciiDigit (hdigits c hc)

/-- A digit is one byte. -/
theorem utf8ByteSize_of_digits {cs : List Char} (hdigits : ∀ c ∈ cs, isAsciiDigit c = true) :
    (String.ofList cs).utf8ByteSize = cs.length := by
  rw [String.utf8ByteSize_ofList]
  induction cs with
  | nil => rfl
  | cons c cs ih =>
      have hsize : c.utf8Size = 1 := by
        have hdigit := hdigits c List.mem_cons_self
        simp only [isAsciiDigit, Bool.and_eq_true, decide_eq_true_eq] at hdigit
        exact if_pos (UInt32.le_trans hdigit.2 (by decide))
      rw [String.utf8Len_cons, hsize, ih fun d hd => hdigits d (List.mem_cons_of_mem c hd),
        List.length_cons]

end Text

namespace Operand

theorem splitCode_append (front : List Char) {back : List Char} {count : Nat}
    (hlength : back.length = count) : splitCode count (front ++ back) = (front, back) := by
  have hfront : (front ++ back).length - count = front.length := by
    rw [List.length_append, hlength, Nat.add_sub_cancel]
  rw [splitCode, hfront, List.splitAt_eq, List.take_left, List.drop_left]

/-- A code is read by its parts: what stands before the last four digits is the year. -/
theorem compactDate?_append {year : List Char} {date : Date}
    (hdigits : Number.IsDigits year) (hlength : year.length = 2 ∨ year.length = 4)
    (hyear : fullYear? (String.ofList year) = some date.year) :
    compactDate? (String.ofList (year ++ (padded 2 date.month ++ padded 2 date.day))) =
      some date := by
  obtain ⟨-, -, -, hmonth, -, hday⟩ := date.isDate
  have hdays := daysInMonth_le date.year date.month
  have hmonthLength : (padded 2 date.month).length = 2 := length_padded (by decide) (by omega)
  have hdayLength : (padded 2 date.day).length = 2 := length_padded (by decide) (by omega)
  have hall := (isDigits_append_padded date hdigits).2
  have htrimmed := Text.trim_of_digits hall
  have hcode : isDigitCode [6, 8]
      (String.ofList (year ++ (padded 2 date.month ++ padded 2 date.day))) = true := by
    rw [isDigitCode, Text.utf8ByteSize_of_digits hall, String.toList_ofList, Bool.and_eq_true,
      List.all_eq_true]
    refine ⟨?_, hall⟩
    simp only [List.length_append, hmonthLength, hdayLength]
    obtain hlength | hlength := hlength <;> rw [hlength] <;> rfl
  have hsplitYear : splitCode 4 (year ++ (padded 2 date.month ++ padded 2 date.day)) =
      (year, padded 2 date.month ++ padded 2 date.day) := by
    apply splitCode_append
    rw [List.length_append, hmonthLength, hdayLength]
  have hsplitMonth := splitCode_append (padded 2 date.month) hdayLength
  simp only [compactDate?, Text.trimmed, String.toList_ofList, htrimmed, hcode, if_true,
    hsplitYear, hsplitMonth, hyear, readDigits?_padded]
  exact dif_pos date.isDate

theorem fullYear?_long {year : Int} (hyear : 0 ≤ year ∧ year ≤ 9999) :
    fullYear? (String.ofList (padded 4 year.toNat)) = some year := by
  have hdigits := isDigits_padded 4 year.toNat
  have hlength : (padded 4 year.toNat).length = 4 := length_padded (by decide) (by omega)
  rw [fullYear?, Text.utf8ByteSize_of_digits hdigits.2, hlength, if_neg (by decide), if_pos rfl,
    String.toList_ofList, Number.readInt?_of_isDigits hdigits, ofDigitChars_padded,
    Int.toNat_of_nonneg hyear.1]

theorem isDigits_century {cs : List Char} (hdigits : ∀ c ∈ cs, isAsciiDigit c = true) :
    Number.IsDigits ('2' :: '0' :: cs) := by
  refine ⟨List.cons_ne_nil _ _, ?_⟩
  simp only [List.forall_mem_cons]
  exact ⟨rfl, rfl, hdigits⟩

theorem ofDigitChars_century {cs : List Char} (hlength : cs.length = 2) :
    Nat.ofDigitChars 10 ('2' :: '0' :: cs) 0 = 2000 + Nat.ofDigitChars 10 cs 0 := by
  rw [Nat.ofDigitChars_cons, Nat.ofDigitChars_cons, Nat.ofDigitChars_eq_ofDigitChars_zero, hlength]
  rfl

theorem fullYear?_short {year : Int} (hyear : 2000 ≤ year ∧ year ≤ 2099) :
    fullYear? (String.ofList (padded 2 (year.toNat - 2000))) = some year := by
  have hdigits := isDigits_padded 2 (year.toNat - 2000)
  have hlength : (padded 2 (year.toNat - 2000)).length = 2 := length_padded (by decide) (by omega)
  have hvalue : ((Nat.ofDigitChars 10 ('2' :: '0' :: padded 2 (year.toNat - 2000)) 0 : Nat) : Int) =
      year := by
    rw [ofDigitChars_century hlength, ofDigitChars_padded]
    omega
  rw [fullYear?, Text.utf8ByteSize_of_digits hdigits.2, hlength, if_pos rfl, String.toList_ofList,
    Number.readInt?_of_isDigits (isDigits_century hdigits.2), hvalue]

/-- The codes of a day are read as it. -/
theorem compactDate?_of_hasCode {date : Date} {code : String} (hcode : date.HasCode code) :
    compactDate? code = some date := by
  cases hcode with
  | long hyear =>
      exact compactDate?_append (isDigits_padded _ _)
        (.inr (length_padded (by decide) (by omega))) (fullYear?_long hyear)
  | short hyear =>
      exact compactDate?_append (isDigits_padded _ _)
        (.inl (length_padded (by decide) (by omega))) (fullYear?_short hyear)

end Operand

end FilterSql

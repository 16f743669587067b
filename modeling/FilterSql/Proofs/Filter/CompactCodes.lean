/-
Codes of years, months and days.

A code is a year of four digits, or of two in this century, and after it a month and a day of two
digits each as far as the code has them.  Digits of a width write one number only, so the readers
of codes take these texts, with blanks about them, and no others.
-/
import FilterSql.Proofs.Filter.DateCodes

namespace FilterSql

open FilterSql.Text (isAsciiDigit)

namespace Number

/-- Digits are the number that they write, with zeros in front up to their length. -/
theorem padded_of_readDigits? {cs : List Char} {n : Nat} (hread : readDigits? cs = some n) :
    padded cs.length n = cs := by
  obtain ⟨hdigits, hvalue⟩ := readDigits?_eq_some_iff.mp hread
  apply ofDigitChars_inj
  · exact length_padded (List.length_pos_of_ne_nil hdigits.1) (readDigits?_lt hread)
  · exact (isDigits_padded _ _).2
  · exact hdigits.2
  · rw [ofDigitChars_padded, hvalue]

end Number

/-- The codes of a year: its four digits, and from 2000 to 2099 the last two of them. -/
inductive YearHasCode (year : Int) : String → Prop
  | long (hyear : 0 ≤ year ∧ year ≤ 9999) :
      YearHasCode year (String.ofList (padded 4 year.toNat))
  | short (hyear : 2000 ≤ year ∧ year ≤ 2099) :
      YearHasCode year (String.ofList (padded 2 (year.toNat - 2000)))

/-- The codes of a month: a code of the year and two digits. -/
inductive MonthHasCode (year : Int) (month : Nat) : String → Prop
  | ofYear {digits : String} (hyear : YearHasCode year digits) (hmonth : 1 ≤ month ∧ month ≤ 12) :
      MonthHasCode year month (digits ++ String.ofList (padded 2 month))

theorem Date.ofYmd?_eq_some_iff {year : Int} {month day : Nat} {date : Date} :
    ofYmd? year month day = some date ↔
      year = date.year ∧ month = date.month ∧ day = date.day := by
  rw [ofYmd?]
  constructor
  · intro hdate
    split at hdate
    · cases hdate
      exact ⟨rfl, rfl, rfl⟩
    · cases hdate
  · rintro ⟨rfl, rfl, rfl⟩
    exact dif_pos date.isDate

namespace YearHasCode

variable {year : Int} {code : String}

theorem isDigits (hcode : YearHasCode year code) : Number.IsDigits code.toList := by
  cases hcode with
  | long | short =>
      rw [String.toList_ofList]
      exact isDigits_padded _ _

theorem length (hcode : YearHasCode year code) :
    code.toList.length = 2 ∨ code.toList.length = 4 := by
  cases hcode with
  | long hyear =>
      right
      rw [String.toList_ofList]
      exact length_padded (by decide) (by omega)
  | short hyear =>
      left
      rw [String.toList_ofList]
      exact length_padded (by decide) (by omega)

end YearHasCode

namespace Operand

/-- A code is the digits of a year and a number of digits after them. -/
structure IsSplit (count : Nat) (code digits tail : String) : Prop where
  eq_append : code = digits ++ tail
  isDigits : Number.IsDigits digits.toList
  length : digits.toList.length = 2 ∨ digits.toList.length = 4
  tail_isDigit : ∀ c ∈ tail.toList, isAsciiDigit c = true
  tail_length : tail.toList.length = count

end Operand

theorem YearHasCode.isSplit {year : Int} {digits : String} (hyear : YearHasCode year digits)
    (tail : List Char) (htail : ∀ c ∈ tail, isAsciiDigit c = true) :
    Operand.IsSplit tail.length (digits ++ String.ofList tail) digits (String.ofList tail) := by
  refine ⟨rfl, hyear.isDigits, hyear.length, ?_, ?_⟩
  · rw [String.toList_ofList]
    exact htail
  · rw [String.toList_ofList]

theorem MonthHasCode.isDigits {year : Int} {month : Nat} {code : String}
    (hcode : MonthHasCode year month code) : Number.IsDigits code.toList := by
  cases hcode with
  | ofYear hyear hmonth =>
      rw [String.toList_append, String.toList_ofList]
      refine ⟨List.append_ne_nil_of_left_ne_nil hyear.isDigits.1 _, ?_⟩
      rw [List.forall_mem_append]
      exact ⟨hyear.isDigits.2, fun c => isAsciiDigit_of_mem_padded⟩

/-- The codes of a day are those of its year with the month and the day after them. -/
theorem Date.hasCode_iff {date : Date} {code : String} :
    date.HasCode code ↔ ∃ digits, YearHasCode date.year digits ∧
      code = digits ++ String.ofList (padded 2 date.month ++ padded 2 date.day) := by
  constructor
  · intro hcode
    cases hcode with
    | long hyear => exact ⟨_, .long hyear, String.ofList_append⟩
    | short hyear => exact ⟨_, .short hyear, String.ofList_append⟩
  · rintro ⟨digits, hyear, rfl⟩
    cases hyear with
    | long hyear =>
        rw [← String.ofList_append]
        exact .long hyear
    | short hyear =>
        rw [← String.ofList_append]
        exact .short hyear

namespace Operand

theorem isDigitCode_iff {lengths : List Nat} {code : String} :
    isDigitCode lengths code = true ↔
      code.toList.length ∈ lengths ∧ ∀ c ∈ code.toList, isAsciiDigit c = true := by
  rw [isDigitCode, Bool.and_eq_true, List.all_eq_true, List.contains_iff_mem]
  apply and_congr_left
  intro hdigits
  rw [← Text.utf8ByteSize_of_digits hdigits, String.ofList_toList]

/-- Digits are the code of a year when they are its number in their width. -/
theorem padded_eq {code : String} (hdigits : Number.IsDigits code.toList) {width : Nat}
    (hlength : code.toList.length = width) :
    Nat.ofDigitChars 10 code.toList 0 < 10 ^ width ∧
      String.ofList (padded width (Nat.ofDigitChars 10 code.toList 0)) = code := by
  have hread := Number.readDigits?_eq_some_iff.mpr ⟨hdigits, rfl⟩
  constructor
  · rw [← hlength]
    exact Number.readDigits?_lt hread
  · rw [← hlength, Number.padded_of_readDigits? hread, String.ofList_toList]

/-- The year of digits is the one that has them as a code. -/
theorem fullYear?_eq_some_iff {code : String} (hdigits : Number.IsDigits code.toList)
    {year : Int} : fullYear? code = some year ↔ YearHasCode year code := by
  constructor
  · intro hread
    have hsize : code.utf8ByteSize = code.toList.length := by
      rw [← Text.utf8ByteSize_of_digits hdigits.2, String.ofList_toList]
    rw [fullYear?, hsize] at hread
    split at hread
    next hlength =>
      obtain ⟨hlt, hcode⟩ := padded_eq hdigits hlength
      rw [Number.readInt?_of_isDigits (isDigits_century hdigits.2),
        ofDigitChars_century hlength] at hread
      cases hread
      have hcentury := @YearHasCode.short (2000 + Nat.ofDigitChars 10 code.toList 0 : Nat)
        ⟨by omega, by omega⟩
      rwa [Int.toNat_natCast, Nat.add_sub_cancel_left, hcode] at hcentury
    next =>
      split at hread
      next hlength =>
        obtain ⟨hlt, hcode⟩ := padded_eq hdigits hlength
        rw [Number.readInt?_of_isDigits hdigits] at hread
        cases hread
        have hfull := @YearHasCode.long (Nat.ofDigitChars 10 code.toList 0 : Nat)
          ⟨by omega, by omega⟩
        rwa [Int.toNat_natCast, hcode] at hfull
      next => cases hread
  · intro hcode
    cases hcode with
    | long hyear => exact fullYear?_long hyear
    | short hyear => exact fullYear?_short hyear

/-- The year that is read from a code of two or four digits is the one that has it. -/
theorem compactYear?_eq_some_iff {raw : String} {year : Int} :
    compactYear? raw = some year ↔ YearHasCode year (Text.trimmed raw) := by
  rw [compactYear?, Option.ite_none_right_eq_some]
  constructor
  · rintro ⟨hcode, hyear⟩
    obtain ⟨hlength, hdigits⟩ := isDigitCode_iff.mp hcode
    refine (fullYear?_eq_some_iff ⟨?_, hdigits⟩).mp hyear
    intro hempty
    rw [hempty] at hlength
    exact absurd hlength (by decide)
  · intro hcode
    refine ⟨isDigitCode_iff.mpr ⟨?_, hcode.isDigits.2⟩,
      (fullYear?_eq_some_iff hcode.isDigits).mpr hcode⟩
    simpa using hcode.length

namespace IsSplit

variable {count : Nat} {code digits tail : String}

theorem isDigitCode (hsplit : IsSplit count code digits tail) :
    isDigitCode [count + 2, count + 4] code = true := by
  have hlength := hsplit.length
  rw [isDigitCode_iff, hsplit.eq_append, String.toList_append, List.length_append,
    hsplit.tail_length, List.forall_mem_append]
  refine ⟨?_, hsplit.isDigits.2, hsplit.tail_isDigit⟩
  simp only [List.mem_cons, List.not_mem_nil, or_false]
  omega

theorem splitCode_eq (hsplit : IsSplit count code digits tail) :
    splitCode count code.toList = (digits.toList, tail.toList) := by
  rw [hsplit.eq_append, String.toList_append]
  exact splitCode_append _ hsplit.tail_length

theorem exists_of_isDigitCode (hcode : Operand.isDigitCode [count + 2, count + 4] code = true) :
    ∃ digits tail, IsSplit count code digits tail := by
  obtain ⟨hlength, hdigits⟩ := isDigitCode_iff.mp hcode
  simp only [List.mem_cons, List.not_mem_nil, or_false] at hlength
  have hcut := List.take_append_drop (code.toList.length - count) code.toList
  rw [← hcut, List.forall_mem_append] at hdigits
  refine ⟨String.ofList (code.toList.take (code.toList.length - count)),
    String.ofList (code.toList.drop (code.toList.length - count)), ?_, ⟨?_, ?_⟩, ?_, ?_, ?_⟩
  · rw [← String.ofList_append, hcut, String.ofList_toList]
  · rw [String.toList_ofList, ← List.length_pos_iff, List.length_take]
    omega
  · rw [String.toList_ofList]
    exact hdigits.1
  · rw [String.toList_ofList, List.length_take]
    omega
  · rw [String.toList_ofList]
    exact hdigits.2
  · rw [String.toList_ofList, List.length_drop]
    omega

end IsSplit

namespace IsSplit

variable {raw digits tail : String}

theorem compactMonth?_iff (hsplit : IsSplit 2 (Text.trimmed raw) digits tail) {year : Int}
    {month : Nat} :
    compactMonth? raw = some (year, month) ↔
      Number.readDigits? tail.toList = some month ∧ (1 ≤ month ∧ month ≤ 12) ∧
        fullYear? digits = some year := by
  have hcode : Operand.isDigitCode [4, 6] (Text.trimmed raw) = true := hsplit.isDigitCode
  rw [compactMonth?, if_pos hcode, hsplit.splitCode_eq]
  simp [Option.bind_eq_some_iff, Option.filter_eq_some_iff, and_assoc]

theorem compactDate?_iff {month day : List Char} (hsplit : IsSplit 4 (Text.trimmed raw) digits tail)
    (htail : tail.toList = month ++ day) (hday : day.length = 2) {date : Date} :
    compactDate? raw = some date ↔
      fullYear? digits = some date.year ∧ Number.readDigits? month = some date.month ∧
        Number.readDigits? day = some date.day := by
  have hcode : Operand.isDigitCode [6, 8] (Text.trimmed raw) = true := hsplit.isDigitCode
  have hcut : splitCode 2 tail.toList = (month, day) := by
    rw [htail]
    exact splitCode_append month hday
  rw [compactDate?, if_pos hcode, hsplit.splitCode_eq]
  simp only [String.ofList_toList, hcut, Option.bind_eq_bind, Option.bind_eq_some_iff,
    Date.ofYmd?_eq_some_iff]
  constructor
  · rintro ⟨_, hyear, _, hmonth, _, hday, rfl, rfl, rfl⟩
    exact ⟨hyear, hmonth, hday⟩
  · rintro ⟨hyear, hmonth, hday⟩
    exact ⟨_, hyear, _, hmonth, _, hday, rfl, rfl, rfl⟩

end IsSplit

theorem exists_isSplit_of_compactMonth? {raw : String} {found : Int × Nat}
    (hread : compactMonth? raw = some found) :
    ∃ digits tail, IsSplit 2 (Text.trimmed raw) digits tail := by
  apply IsSplit.exists_of_isDigitCode
  by_contra hcode
  rw [compactMonth?, if_neg hcode] at hread
  cases hread

theorem exists_isSplit_of_compactDate? {raw : String} {date : Date}
    (hread : compactDate? raw = some date) :
    ∃ digits tail, IsSplit 4 (Text.trimmed raw) digits tail := by
  apply IsSplit.exists_of_isDigitCode
  by_contra hcode
  rw [compactDate?, if_neg hcode] at hread
  cases hread

/-- The month that is read from a code of four or six digits is the one that has it. -/
theorem compactMonth?_eq_some_iff {raw : String} {year : Int} {month : Nat} :
    compactMonth? raw = some (year, month) ↔ MonthHasCode year month (Text.trimmed raw) := by
  constructor
  · intro hread
    obtain ⟨digits, tail, hsplit⟩ := exists_isSplit_of_compactMonth? hread
    obtain ⟨hmonth, hrange, hyear⟩ := hsplit.compactMonth?_iff.mp hread
    have htail := Number.padded_of_readDigits? hmonth
    rw [hsplit.tail_length] at htail
    rw [hsplit.eq_append, ← String.ofList_toList (s := tail), ← htail]
    exact .ofYear ((fullYear?_eq_some_iff hsplit.isDigits).mp hyear) hrange
  · intro hcode
    generalize hraw : Text.trimmed raw = code at hcode
    cases hcode with
    | @ofYear digits hyear hmonth =>
        have hsplit := hyear.isSplit (padded 2 month) fun c => isAsciiDigit_of_mem_padded
        rw [length_padded (by decide) (by omega), ← hraw] at hsplit
        rw [hsplit.compactMonth?_iff, String.toList_ofList]
        exact ⟨readDigits?_padded 2 month, hmonth,
          (fullYear?_eq_some_iff hyear.isDigits).mpr hyear⟩

/-- The day that is read from a code of six or eight digits is the one that has it. -/
theorem compactDate?_eq_some_iff {raw : String} {date : Date} :
    compactDate? raw = some date ↔ date.HasCode (Text.trimmed raw) := by
  constructor
  · intro hread
    obtain ⟨digits, tail, hsplit⟩ := exists_isSplit_of_compactDate? hread
    have hlength := hsplit.tail_length
    have hcut : tail.toList = tail.toList.take 2 ++ tail.toList.drop 2 :=
      (List.take_append_drop 2 _).symm
    have hdayLength : (tail.toList.drop 2).length = 2 := by
      rw [List.length_drop, hlength]
    have hmonthLength : (tail.toList.take 2).length = 2 := by
      rw [List.length_take, hlength]
      rfl
    obtain ⟨hyear, hmonth, hday⟩ := (hsplit.compactDate?_iff hcut hdayLength).mp hread
    have hmonthDigits := Number.padded_of_readDigits? hmonth
    have hdayDigits := Number.padded_of_readDigits? hday
    rw [hmonthLength] at hmonthDigits
    rw [hdayLength] at hdayDigits
    refine Date.hasCode_iff.mpr ⟨digits, (fullYear?_eq_some_iff hsplit.isDigits).mp hyear, ?_⟩
    rw [hmonthDigits, hdayDigits, ← hcut, String.ofList_toList]
    exact hsplit.eq_append
  · intro hcode
    have htrimmed : Text.trimmed (Text.trimmed raw) = Text.trimmed raw :=
      Text.trimmed_ofList_trim raw.toList
    have hread := compactDate?_of_hasCode hcode
    rw [compactDate?, htrimmed] at hread
    exact hread

/-- A reader takes the codes of its values, with blanks about them, and refuses every other text. -/
structure ReadsCodes {α : Type} (read? : String → Option α) (HasCode : α → String → Prop) :
    Prop where
  read_code : ∀ a code, HasCode a code → read? code = some a
  read_iff : ∀ raw a, read? raw = some a ↔ HasCode a (Text.trimmed raw)
  refused : ∀ raw, (∀ a, ¬ HasCode a (Text.trimmed raw)) → read? raw = none

theorem ReadsCodes.of_isDigits {α : Type} {read? : String → Option α}
    {HasCode : α → String → Prop}
    (hread : ∀ {raw a}, read? raw = some a ↔ HasCode a (Text.trimmed raw))
    (hdigits : ∀ {a code}, HasCode a code → Number.IsDigits code.toList) :
    ReadsCodes read? HasCode := by
  refine ⟨?_, fun raw a => hread, ?_⟩
  · intro a code hcode
    have htrimmed : Text.trimmed code = code := by
      rw [Text.trimmed, Text.trim_of_digits (hdigits hcode).2, String.ofList_toList]
    rw [hread, htrimmed]
    exact hcode
  · intro raw hnone
    rw [Option.eq_none_iff_forall_ne_some]
    exact fun a ha => hnone a (hread.mp ha)

/-- Days, months and years are read from their codes and from nothing else. -/
theorem readsCodes_compact :
    ReadsCodes compactDate? Date.HasCode ∧
      ReadsCodes compactMonth? (fun found => MonthHasCode found.1 found.2) ∧
      ReadsCodes compactYear? YearHasCode :=
  ⟨.of_isDigits compactDate?_eq_some_iff Date.HasCode.isDigits,
    .of_isDigits compactMonth?_eq_some_iff MonthHasCode.isDigits,
    .of_isDigits compactYear?_eq_some_iff YearHasCode.isDigits⟩

/-- The year 1900 had no leap day, and digits of other scripts are no digits of a code. -/
example : compactDate? "19000229" = none ∧ compactYear? "٢٠" = none := by
  decide

end Operand

end FilterSql

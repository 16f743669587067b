/-
Ranges of days on temporal columns.

Two codes of days make a range from the midnight of the first to the last whole second of the
second, and one code makes a comparison of year, month and day.  Of a moment the range is true
when its day is in it, but for the moments after the last whole second of the last day: these
it leaves out, and its negation has them.
-/
import FilterSql.Proofs.Calendar.Moments
import FilterSql.Proofs.Filter.ConditionForms
import FilterSql.Proofs.Filter.DateCodes
import FilterSql.Proofs.Filter.OperatorText
import FilterSql.Proofs.Sql.Truth

namespace FilterSql

/-- A part of a date. -/
def Date.part (date : Date) : DatePart → Int
  | .year => date.year
  | .month => date.month
  | .day => date.day

/-- The moment that a date or a timestamp is; a date is its midnight. -/
def Value.moment? : Value → Option Timestamp
  | date d => some ⟨d, .midnight⟩
  | timestamp t => some t
  | _ => none

/-- A database that orders moments and takes their dates apart, and does all else as the plain
one. -/
def Engine.calendar : Engine where
  eq left right :=
    match left.moment?, right.moment? with
    | some first, some second => first == second
    | _, _ => plain.eq left right
  lt left right :=
    match left.moment?, right.moment? with
    | some first, some second => first.isBefore second
    | _, _ => plain.lt left right
  like := plain.like
  lower := plain.lower
  text := plain.text
  part part value :=
    match value.moment? with
    | some moment => .int (Int64.ofInt (moment.date.part part))
    | none => .null

/-- A column between the midnight of a day and the last whole second of another. -/
def ColumnName.betweenDays (column : ColumnName) (first last : Date) (negated : Bool) : Expr :=
  .between (.column column) (.value (.date first)) (.value (.timestamp ⟨last, .endOfDay⟩)) negated

/-- A column with the year, the month and the day of a date. -/
def ColumnName.onDay (column : ColumnName) (date : Date) : Expr :=
  let test (part : DatePart) : Expr := column.partIs part (Int64.ofInt (date.part part))
  ((test .year).and (test .month)).and (test .day)

/-- Whether a moment is between the midnight of a day and the last whole second of another. -/
def Timestamp.isCovered (stamp : Timestamp) (first last : Date) : Bool :=
  (mk first .midnight).isUpTo stamp && stamp.isUpTo ⟨last, .endOfDay⟩

/-- A moment of the last day of a range that the range leaves out. -/
def Timestamp.IsMissed (stamp : Timestamp) (first last : Date) : Prop :=
  first.dayNumber ≤ last.dayNumber ∧ stamp.date = last ∧ stamp.time.IsPastEnd

theorem Timestamp.IsMissed.isWithin {stamp : Timestamp} {first last : Date}
    (hmissed : stamp.IsMissed first last) : stamp.date.IsWithin first last := by
  obtain ⟨hordered, hlast, -⟩ := hmissed
  rw [Date.IsWithin, hlast]
  exact ⟨hordered, Int.le_refl _⟩

/-- A moment that is left out is one of a day of the range. -/
theorem Timestamp.isWithin_and_not_isMissed_iff {stamp : Timestamp} {first last : Date} :
    (stamp.date.IsWithin first last ∧ ¬stamp.IsMissed first last ↔
      stamp.date.IsWithin first last) ↔ ¬stamp.IsMissed first last := by
  rw [and_iff_left_iff_imp]
  constructor
  · intro hkept hmissed
    exact hkept hmissed.isWithin hmissed
  · intro hkept _
    exact hkept

/-- A range of one day is this day. -/
theorem Date.isWithin_self_iff {date day : Date} : date.IsWithin day day ↔ date = day := by
  rw [IsWithin, ← dayNumber_inj]
  omega

theorem Timestamp.isCovered_iff {stamp : Timestamp} {first last : Date} :
    stamp.isCovered first last = true ↔
      stamp.date.IsWithin first last ∧ ¬stamp.IsMissed first last := by
  rw [isCovered, Bool.and_eq_true, midnight_isUpTo_iff, isUpTo_endOfDay_iff, Date.IsWithin,
    IsMissed, ← Date.dayNumber_inj]
  constructor
  · rintro ⟨hfirst, hlast, hkept⟩
    exact ⟨⟨hfirst, hlast⟩, fun hmissed => hkept hmissed.2⟩
  · rintro ⟨⟨hfirst, hlast⟩, hkept⟩
    refine ⟨hfirst, hlast, fun hend => hkept ⟨?_, hend⟩⟩
    omega

section Calendar

variable {left right : Value} {first second : Timestamp}

theorem Value.isNull_of_moment? (hleft : left.moment? = some first) : left.isNull = false := by
  cases left with
  | date | timestamp => rfl
  | null | boolean | int | float | string | json => cases hleft

theorem Engine.calendar_compare_ltEq (hleft : left.moment? = some first)
    (hright : right.moment? = some second) :
    calendar.compare .ltEq left right = .ofBool (first.isUpTo second) := by
  simp only [compare, Value.isNull_of_moment? hleft, Value.isNull_of_moment? hright, Bool.or_self,
    Bool.false_eq_true, if_false, holds, calendar, hleft, hright]
  rfl

theorem Engine.calendar_compare_gtEq (hleft : left.moment? = some first)
    (hright : right.moment? = some second) :
    calendar.compare .gtEq left right = .ofBool (second.isUpTo first) := by
  have hsame : (first == second) = (second == first) := Bool.beq_comm
  simp only [compare, Value.isNull_of_moment? hleft, Value.isNull_of_moment? hright, Bool.or_self,
    Bool.false_eq_true, if_false, holds, calendar, hleft, hright, hsame]
  rfl

/-- The parts of dates are numbers of 64 bits. -/
theorem Date.ofInt_part_inj {date other : Date} {part : DatePart} :
    Int64.ofInt (date.part part) = Int64.ofInt (other.part part) ↔
      date.part part = other.part part := by
  have hsmall : ∀ date : Date, (Int64.ofInt (date.part part)).toInt = date.part part := by
    intro date
    obtain ⟨hleast, hgreatest, -, hmonth, -, hday⟩ := date.isDate
    have hdays := daysInMonth_le date.year date.month
    apply Int64.toInt_ofInt_of_le <;> cases part <;> simp only [Date.part] <;> omega
  constructor
  · intro hsame
    rw [← hsmall date, hsame, hsmall other]
  · intro hsame
    rw [hsame]

theorem Date.eq_iff_part {date other : Date} :
    date = other ↔ ∀ part, date.part part = other.part part := by
  constructor
  · rintro rfl part
    rfl
  · intro hparts
    have hyear : date.year = other.year := hparts .year
    have hmonth : date.month = other.month := Int.ofNat_inj.mp (hparts .month)
    have hday : date.day = other.day := Int.ofNat_inj.mp (hparts .day)
    cases date
    cases other
    cases hyear
    cases hmonth
    cases hday
    rfl

end Calendar

namespace Expr

variable {column : ColumnName} {read : ColumnName → Value} {stamp : Timestamp}

/-- A range of days is true of the moments that it covers. -/
theorem truth_betweenDays (hread : (read column).moment? = some stamp) (first last : Date)
    (negated : Bool) :
    (column.betweenDays first last negated).truth .calendar read =
      .ofBool (stamp.isCovered first last != negated) := by
  have hlow : Engine.calendar.compare .gtEq (read column) (.date first) =
      .ofBool ((Timestamp.mk first .midnight).isUpTo stamp) :=
    Engine.calendar_compare_gtEq hread rfl
  have hhigh : Engine.calendar.compare .ltEq (read column) (.timestamp ⟨last, .endOfDay⟩) =
      .ofBool (stamp.isUpTo ⟨last, .endOfDay⟩) :=
    Engine.calendar_compare_ltEq hread rfl
  simp only [ColumnName.betweenDays, truth, scalar, hlow, hhigh, Truth.and_ofBool,
    Truth.negatedIf_ofBool, Timestamp.isCovered]

/-- The parts of a day are those of no other day. -/
theorem truth_onDay (hread : (read column).moment? = some stamp) (date : Date) :
    (column.onDay date).truth .calendar read = .ofBool (stamp.date == date) := by
  have hpart : ∀ part : DatePart,
      (column.partIs part (Int64.ofInt (date.part part))).truth .calendar read =
        .ofBool (stamp.date.part part == date.part part) := by
    intro part
    have hvalue : ((read column).mapPresent (Engine.calendar.part part)) =
        .int (Int64.ofInt (stamp.date.part part)) := by
      simp only [Value.mapPresent, Value.isNull_of_moment? hread, Engine.calendar, hread,
        Bool.false_eq_true, if_false]
    have hsame : (Int64.ofInt (stamp.date.part part) == Int64.ofInt (date.part part)) =
        (stamp.date.part part == date.part part) := by
      rw [Bool.eq_iff_iff, beq_iff_eq, beq_iff_eq, Date.ofInt_part_inj]
    simp only [ColumnName.partIs, truth, scalar, hvalue, ← hsame]
    rfl
  have hdate : (stamp.date == date) = ((stamp.date.part .year == date.part .year &&
      stamp.date.part .month == date.part .month) && stamp.date.part .day == date.part .day) := by
    rw [Bool.eq_iff_iff]
    simp only [Bool.and_eq_true, beq_iff_eq, Date.eq_iff_part]
    constructor
    · intro hall
      exact ⟨⟨hall .year, hall .month⟩, hall .day⟩
    · rintro ⟨⟨hyear, hmonth⟩, hday⟩ part
      cases part <;> assumption
  rw [hdate, ← Truth.and_ofBool, ← Truth.and_ofBool, ← hpart, ← hpart, ← hpart]
  rfl

end Expr

namespace Date.HasCode

variable {first last : Date} {low high : String}

theorem isBlankText_append (hlow : first.HasCode low) (rest : String) :
    Text.isBlankText (low ++ rest) = false := by
  obtain ⟨hsome, hdigits⟩ := hlow.isDigits
  obtain ⟨c, cs, hcs⟩ := List.exists_cons_of_ne_nil hsome
  have hc : Text.isBlank c = false := by
    apply Text.isBlank_of_isAsciiDigit
    apply hdigits
    rw [hcs]
    exact List.mem_cons_self
  rw [Text.isBlankText, String.toList_append, hcs, List.cons_append, List.all_cons, hc]
  rfl

/-- Two codes with a comma between are the entries of a list. -/
theorem entries_eq (hlow : first.HasCode low) (hhigh : last.HasCode high) :
    Target.entries (Text.trimmed (low ++ "," ++ high)) = [low, high] := by
  have hlowDigits := hlow.isDigits
  have hhighDigits := hhigh.isDigits
  have hcomma : ',' ∉ low.toList ∧ ',' ∉ high.toList :=
    ⟨fun hc => absurd (hlowDigits.2 _ hc) (by decide),
      fun hc => absurd (hhighDigits.2 _ hc) (by decide)⟩
  have hkept : ∀ c ∈ low.toList ++ ',' :: high.toList, Text.isBlank c = false := by
    intro c hc
    rw [List.mem_append, List.mem_cons] at hc
    obtain hc | rfl | hc := hc
    · exact Text.isBlank_of_isAsciiDigit (hlowDigits.2 c hc)
    · rfl
    · exact Text.isBlank_of_isAsciiDigit (hhighDigits.2 c hc)
  have hlist : (low ++ "," ++ high).toList = low.toList ++ ',' :: high.toList := by
    rw [String.toList_append, String.toList_append, List.append_assoc]
    rfl
  have htrimmed : (Text.trimmed (low ++ "," ++ high)).toList =
      low.toList ++ ',' :: high.toList := by
    rw [Text.trimmed, String.toList_ofList, hlist]
    exact Text.strip_of_forall hkept
  have hpieces : Text.pieces ',' (low.toList ++ ',' :: high.toList) =
      [low.toList, high.toList] := by
    rw [Text.pieces_append_cons hcomma.1, Text.pieces_of_notMem hcomma.2]
  simp [Target.entries, htrimmed, hpieces, Text.trim_of_digits hlowDigits.2,
    Text.trim_of_digits hhighDigits.2, hlowDigits.1, hhighDigits.1]

end Date.HasCode

namespace Target

variable {column : ColumnName} {first last : Date} {low high : String}

/-- Two codes make the range from the midnight of the one day to the end of the other. -/
theorem range?_of_hasCode {operator : Operator} {negated : Bool}
    (hnegated : rangeNegation? operator = some negated) (hlow : first.HasCode low)
    (hhigh : last.HasCode high) :
    (mk column (some .temporal)).range? operator (Text.trimmed (low ++ "," ++ high)) =
      some (column.betweenDays first last negated) := by
  simp only [range?, hnegated, hlow.entries_eq hhigh, bounds?, if_true, Option.bind_eq_bind,
    Operand.compactDate?_of_hasCode hlow, Operand.compactDate?_of_hasCode hhigh, Option.bind_some]
  rfl

/-- One code makes a comparison with the parts of its day. -/
theorem temporal?_date_of_hasCode (hlow : first.HasCode low) :
    (mk column (some .temporal)).temporal? .date (Text.trimmed low) =
      some (column.onDay first) := by
  have htrimmed : Text.trimmed low = low := by
    rw [Text.trimmed, Text.trim_of_digits hlow.isDigits.2, String.ofList_toList]
  simp only [temporal?, htrimmed, if_true, dateParts?, Option.bind_eq_bind,
    Operand.compactDate?_of_hasCode hlow, Option.bind_some]
  rfl

end Target

namespace ColumnName

variable {column : ColumnName} {cast : String} {first last : Date} {low high : String}

/-- The condition of a range of days, written as two codes. -/
theorem condition?_range (hcast : ColumnType.ofCast? cast = some .temporal) (operator : Operator)
    {negated : Bool} (hnegated : Target.rangeNegation? operator = some negated)
    (hlow : first.HasCode low) (hhigh : last.HasCode high) (mode : DefaultMatch) :
    column.condition? cast (operator.symbol ++ (low ++ "," ++ high)) mode =
      some (column.betweenDays first last negated) := by
  have hblank : Text.isBlankText (low ++ "," ++ high) = false := by
    rw [String.append_assoc]
    exact hlow.isBlankText_append _
  have hequals : operator.takesEquals = true → (low ++ "," ++ high).toList.head? ≠ some '=' := by
    cases operator with
    | between | notBetween => nofun
    | _ => cases hnegated
  rw [condition?_symbol_append (Target.ofCast?_of_type hcast column) operator hblank hequals,
    ← Target.range?_of_hasCode hnegated hlow hhigh]
  cases operator with
  | between | notBetween => rfl
  | _ => cases hnegated

/-- The condition of a day, written as a code. -/
theorem condition?_date (hcast : ColumnType.ofCast? cast = some .temporal)
    (hlow : first.HasCode low) (mode : DefaultMatch) :
    column.condition? cast ("date:" ++ low) mode =
      some (column.onDay first) := by
  have hblank : Text.isBlankText low = false := by
    simpa using hlow.isBlankText_append ""
  rw [← Target.temporal?_date_of_hasCode hlow]
  exact condition?_symbol_append (Target.ofCast?_of_type hcast column) .date hblank nofun mode

/-- Of a moment, a test of the day is true on this day.  A range of days and its negation are
right about it unless it is one of the moments of the last day that the range leaves out, and
for these a range of one day and the test of the day disagree. -/
theorem truth_dayRange_iff (hcast : ColumnType.ofCast? cast = some .temporal)
    (hlow : first.HasCode low) (hhigh : last.HasCode high) (mode : DefaultMatch)
    {read : ColumnName → Value} {stamp : Timestamp}
    (hread : (read column).moment? = some stamp) :
    ∃ within without alone onDay : Expr,
      (column.condition? cast ("between:" ++ (low ++ "," ++ high)) mode = some within ∧
        column.condition? cast ("notbetween:" ++ (low ++ "," ++ high)) mode = some without ∧
        column.condition? cast ("between:" ++ (low ++ "," ++ low)) mode = some alone ∧
        column.condition? cast ("date:" ++ low) mode = some onDay) ∧
      (onDay.truth .calendar read = .yes ↔ stamp.date = first) ∧
      ((within.truth .calendar read = .yes ↔ stamp.date.IsWithin first last) ↔
        ¬stamp.IsMissed first last) ∧
      ((without.truth .calendar read = .yes ↔ ¬stamp.date.IsWithin first last) ↔
        ¬stamp.IsMissed first last) ∧
      (alone.truth .calendar read = onDay.truth .calendar read ↔ ¬stamp.IsMissed first first) := by
  refine ⟨_, _, _, _, ⟨condition?_range hcast .between rfl hlow hhigh mode,
    condition?_range hcast .notBetween rfl hlow hhigh mode,
    condition?_range hcast .between rfl hlow hlow mode, condition?_date hcast hlow mode⟩, ?_⟩
  have hwithin := @Timestamp.isWithin_and_not_isMissed_iff stamp first last
  have halone := @Timestamp.isWithin_and_not_isMissed_iff stamp first first
  rw [Date.isWithin_self_iff] at halone
  rw [Expr.truth_onDay hread, Expr.truth_betweenDays hread,
    Expr.truth_betweenDays hread, Expr.truth_betweenDays hread, Bool.bne_false,
    Bool.bne_false, Bool.bne_true, Truth.ofBool_inj, Bool.eq_iff_iff]
  simp only [Truth.ofBool_eq_yes, Bool.not_eq_true', Bool.eq_false_iff, ne_eq,
    Timestamp.isCovered_iff, Date.isWithin_self_iff, beq_iff_eq, not_iff_not, hwithin, halone,
    and_self]

end ColumnName

namespace DayRanges

/-- When something was made. -/
def madeAt : ColumnName := ⟨some "orders", "made_at"⟩

/-- The last day of a year. -/
def lastDay : Date := ⟨2022, 12, 31, by decide⟩

/-- The day after it. -/
def newYear : Date := ⟨2023, 1, 1, by decide⟩

theorem ofCast?_datetime : ColumnType.ofCast? "datetime" = some .temporal := by
  decide +kernel

theorem hasCode_lastDay : lastDay.HasCode "221231" :=
  .short (by decide)

theorem hasCode_newYear : newYear.HasCode "20230101" :=
  .long (by decide)

/-- A column that was made in the last whole second of the year's first day. -/
def readEndOfDay : ColumnName → Value := fun _ => .timestamp ⟨newYear, .endOfDay⟩

/-- The last whole second of the second day is in a range of two days, over the end of a year. -/
theorem truth_dayRange_newYear :
    ∃ within without : Expr,
      madeAt.condition? "datetime" "between:221231,20230101" .byType = some within ∧
      madeAt.condition? "datetime" "notbetween:221231,20230101" .byType = some without ∧
      within.truth .calendar readEndOfDay = .yes ∧
      without.truth .calendar readEndOfDay ≠ .yes := by
  have hread : (readEndOfDay madeAt).moment? = some ⟨newYear, .endOfDay⟩ := rfl
  have hkept : ¬(Timestamp.mk newYear .endOfDay).IsMissed lastDay newYear := fun hmissed =>
    hmissed.2.2.2 rfl
  have hday : newYear.IsWithin lastDay newYear := by
    rw [Date.IsWithin]
    decide
  obtain ⟨within, without, -, -, ⟨hwithin, hwithout, -, -⟩, -, hbetween, hnotBetween, -⟩ :=
    ColumnName.truth_dayRange_iff ofCast?_datetime hasCode_lastDay hasCode_newYear .byType hread
  refine ⟨within, without, hwithin, hwithout, (hbetween.mpr hkept).mpr hday, ?_⟩
  intro hyes
  exact (hnotBetween.mpr hkept).mp hyes hday

/-- Half a second before the end of a day. -/
def lateMoment : Timestamp := ⟨newYear, 23, 59, 59, 500000000, by decide⟩

/-- A column that was made in the last half second of a day. -/
def readLate : ColumnName → Value := fun _ => .timestamp lateMoment

/-- In the last half second of a day the test of the day is true, and the range of the day is not
but its negation is. -/
theorem dayRange_misses_lateMoment :
    ∃ within without onDay : Expr,
      (madeAt.condition? "datetime" "between:20230101,20230101" .byType = some within ∧
        madeAt.condition? "datetime" "notbetween:20230101,20230101" .byType = some without ∧
        madeAt.condition? "datetime" "date:20230101" .byType = some onDay) ∧
      lateMoment.date.IsWithin newYear newYear ∧
      onDay.truth .calendar readLate = .yes ∧
      within.truth .calendar readLate = .no ∧
      without.truth .calendar readLate = .yes := by
  have hread : (readLate madeAt).moment? = some lateMoment := rfl
  refine ⟨_, _, _, ⟨ColumnName.condition?_range ofCast?_datetime .between rfl hasCode_newYear
      hasCode_newYear .byType,
    ColumnName.condition?_range ofCast?_datetime .notBetween rfl hasCode_newYear hasCode_newYear
      .byType,
    ColumnName.condition?_date ofCast?_datetime hasCode_newYear .byType⟩,
    Date.isWithin_self_iff.mpr rfl, ?_⟩
  rw [Expr.truth_onDay hread, Expr.truth_betweenDays hread,
    Expr.truth_betweenDays hread]
  decide

end DayRanges

end FilterSql

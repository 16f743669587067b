/-
Conditions whose values fit their places.

The condition of a filter value is about the column alone.  It compares the column with values
of its type, the text of the column with texts, and parts of a date with numbers, which only a
temporal column has; the numbers of a day are those of a date in the calendar.
-/
import FilterSql.Proofs.Filter.ConditionValues
import FilterSql.Proofs.Filter.Mentions

namespace FilterSql

/-- A value that a column of a type may be compared with; a text has something in it and no blanks
about it. -/
structure ColumnType.Admits (type : Option ColumnType) (value : Value) : Prop where
  takes : Takes type value
  trimmed : ∀ s, value = .string s → s ≠ "" ∧ Text.trimmed s = s

/-- The conditions on a column of a type in which every value fits its place. -/
inductive ColumnName.WellTyped (column : ColumnName) (type : Option ColumnType) : Expr → Prop
  | comparison {operator : Operator} {op : BinaryOp} {value : Value}
      (hop : Target.comparisonOp? operator = some op) (hvalue : ColumnType.Admits type value) :
      WellTyped column type (.binary op (.column column) (.value value))
  | lowered (hstring : type = some .string) (pattern : String) :
      WellTyped column type
        (.binary .like (.call "LOWER" [.column column]) (.value (.string pattern)))
  | text (hother : type ≠ some .string) (pattern : String) :
      WellTyped column type (.binary .like (.castText (.column column)) (.value (.string pattern)))
  | list {values : List Value} (negated : Bool) (hsome : values ≠ [])
      (hvalues : ∀ value ∈ values, ColumnType.Admits type value) :
      WellTyped column type (.inList (.column column) (values.map .value) negated)
  | range {low high : Value} (negated : Bool) (hlow : ColumnType.Admits type low)
      (hhigh : ColumnType.Admits type high) :
      WellTyped column type (.between (.column column) (.value low) (.value high) negated)
  | year (htemporal : type = some .temporal) (year : Int64) :
      WellTyped column type (column.partIs .year year)
  | month (htemporal : type = some .temporal) {year month : Int64}
      (hmonth : 1 ≤ month.toInt ∧ month.toInt ≤ 12) :
      WellTyped column type ((column.partIs .year year).and (column.partIs .month month))
  | day (htemporal : type = some .temporal) {year month day : Int64} {date : Date}
      (hdate : date.year = year.toInt ∧ date.month = month.toInt ∧ date.day = day.toInt) :
      WellTyped column type (((column.partIs .year year).and (column.partIs .month month)).and
        (column.partIs .day day))

theorem ColumnType.Takes.isPresent {type : Option ColumnType} {value : Value}
    (htakes : Takes type value) : value ≠ .null ∧ ∀ document, value ≠ .json document := by
  cases htakes <;> exact ⟨nofun, nofun⟩

section Operands

variable {type : Option ColumnType} {raw : String} {value : Value}

/-- The value of a text that is not blank. -/
theorem Operand.admits_of_scalar? (hblank : Text.isBlankText raw = false)
    (hvalue : scalar? type raw = some value) : ColumnType.Admits type value := by
  refine ⟨takes_of_scalar? hvalue, ?_⟩
  rintro s rfl
  have hs : s = Text.trimmed raw := by
    cases takes_of_scalar? hvalue with
    | string | anyText =>
        cases hvalue
        rfl
  rw [hs]
  refine ⟨?_, Text.trimmed_ofList_trim _⟩
  intro hempty
  have hsome := Text.isEmpty_trimmed raw
  rw [hempty, hblank] at hsome
  cases hsome

end Operands

/-- A number that is small is kept in 64 bits. -/
theorem Int64.toInt_ofInt_of_natAbs_lt {n : Int} (hn : n.natAbs < 10000) :
    (Int64.ofInt n).toInt = n :=
  Int64.toInt_ofInt_of_le (by omega) (by omega)

namespace Target

variable {target : Target} {operator : Operator} {operand : String} {expr : Expr}

theorem wellTyped_of_comparison? (hblank : Text.isBlankText operand = false)
    (hexpr : target.comparison? operator operand = some expr) :
    target.column.WellTyped target.type expr := by
  obtain ⟨op, hop, hexpr⟩ := Option.bind_eq_some_iff.mp hexpr
  obtain ⟨value, hvalue, hexpr⟩ := Option.bind_eq_some_iff.mp hexpr
  cases hexpr
  exact .comparison hop (Operand.admits_of_scalar? hblank hvalue)

theorem wellTyped_of_pattern? (hexpr : target.pattern? operator operand = some expr) :
    target.column.WellTyped target.type expr := by
  obtain ⟨pattern, -, hexpr⟩ := Option.bind_eq_some_iff.mp hexpr
  split at hexpr
  next hstring =>
    cases hexpr
    exact .lowered hstring _
  next hother =>
    cases hexpr
    exact .text hother _

/-- The entries of a list are not blank. -/
theorem isBlankText_of_mem_entries {entry : String} (hentry : entry ∈ entries operand) :
    Text.isBlankText entry = false := by
  simp only [entries, List.mem_map, List.mem_filter] at hentry
  obtain ⟨_, ⟨⟨piece, -, rfl⟩, hsome⟩, rfl⟩ := hentry
  rw [← Text.isEmpty_trimmed, Text.trimmed_ofList_trim]
  simpa using hsome

theorem wellTyped_of_list? (hexpr : target.list? operator operand = some expr) :
    target.column.WellTyped target.type expr := by
  simp only [list?, Option.bind_eq_bind, Option.bind_eq_some_iff] at hexpr
  obtain ⟨negated, -, hexpr⟩ := hexpr
  split at hexpr
  next => cases hexpr
  next hsome =>
    cases hexpr
    apply ColumnName.WellTyped.list
    · exact fun hnil => hsome (List.isEmpty_iff.mpr hnil)
    · intro value hvalue
      obtain ⟨entry, hentry, hvalue⟩ := List.mem_filterMap.mp hvalue
      exact Operand.admits_of_scalar? (isBlankText_of_mem_entries hentry) hvalue

/-- Both ends of a range fit. -/
theorem admits_of_bounds? {type : Option ColumnType} {low high : String} {ends : Value × Value}
    (hlow : Text.isBlankText low = false) (hhigh : Text.isBlankText high = false)
    (hends : bounds? type low high = some ends) :
    ColumnType.Admits type ends.1 ∧ ColumnType.Admits type ends.2 := by
  unfold bounds? at hends
  split at hends
  next htemporal =>
    obtain ⟨first, -, hends⟩ := Option.bind_eq_some_iff.mp hends
    obtain ⟨last, -, hends⟩ := Option.bind_eq_some_iff.mp hends
    cases hends
    rw [htemporal]
    exact ⟨⟨.date first, nofun⟩, ⟨.timestamp _, nofun⟩⟩
  next =>
    obtain ⟨first, hfirst, hends⟩ := Option.bind_eq_some_iff.mp hends
    obtain ⟨last, hlast, hends⟩ := Option.bind_eq_some_iff.mp hends
    cases hends
    exact ⟨Operand.admits_of_scalar? hlow hfirst, Operand.admits_of_scalar? hhigh hlast⟩

theorem wellTyped_of_range? (hexpr : target.range? operator operand = some expr) :
    target.column.WellTyped target.type expr := by
  obtain ⟨negated, -, hexpr⟩ := Option.bind_eq_some_iff.mp hexpr
  split at hexpr
  next low high rest hentries =>
    obtain ⟨ends, hends, hexpr⟩ := Option.bind_eq_some_iff.mp hexpr
    cases hexpr
    have hentry : ∀ entry ∈ low :: high :: rest, Text.isBlankText entry = false := by
      rw [← hentries]
      exact fun _ => isBlankText_of_mem_entries
    simp only [List.forall_mem_cons] at hentry
    obtain ⟨hlow, hhigh⟩ := admits_of_bounds? hentry.1 hentry.2.1 hends
    exact .range negated hlow hhigh
  next => cases hexpr

theorem wellTyped_of_temporal? (hexpr : target.temporal? operator operand = some expr) :
    target.column.WellTyped target.type expr := by
  rw [temporal?] at hexpr
  split at hexpr
  next htemporal =>
    obtain ⟨parts, hparts, hexpr⟩ := Option.bind_eq_some_iff.mp hexpr
    have hsmall := natAbs_dateParts?_lt hparts
    unfold dateParts? at hparts
    split at hparts
    · obtain ⟨date, hdate, hparts⟩ := Option.bind_eq_some_iff.mp hparts
      cases hparts
      cases hexpr
      simp only [List.forall_mem_cons] at hsmall
      obtain ⟨hyear, hmonth, hday, -⟩ := hsmall
      have hparts : date.year = (Int64.ofInt date.year).toInt ∧
          date.month = (Int64.ofInt date.month).toInt ∧
          date.day = (Int64.ofInt date.day).toInt := by
        rw [Int64.toInt_ofInt_of_natAbs_lt hyear, Int64.toInt_ofInt_of_natAbs_lt hmonth,
          Int64.toInt_ofInt_of_natAbs_lt hday]
        exact ⟨rfl, rfl, rfl⟩
      exact .day htemporal hparts
    · obtain ⟨year, hyear, hparts⟩ := Option.bind_eq_some_iff.mp hparts
      cases hparts
      cases hexpr
      exact .year htemporal _
    · obtain ⟨⟨year, month⟩, hmonth, hparts⟩ := Option.bind_eq_some_iff.mp hparts
      cases hparts
      cases hexpr
      refine .month htemporal ?_
      obtain ⟨-, hrange⟩ := Operand.bounds_of_compactMonth? hmonth
      rw [Int64.toInt_ofInt_of_natAbs_lt (hsmall _ (.tail _ (.head _)))]
      dsimp only at hrange ⊢
      omega
    · cases hparts
  next => cases hexpr

theorem wellTyped_of_operation? (hblank : Text.isBlankText operand = false)
    (hexpr : target.operation? operator operand = some expr) :
    target.column.WellTyped target.type expr := by
  cases operator with
  | notEq | not | eq | gtEq | ltEq | gt | lt => exact wellTyped_of_comparison? hblank hexpr
  | startsWith | contains | endsWith => exact wellTyped_of_pattern? hexpr
  | inList | notInList => exact wellTyped_of_list? hexpr
  | between | notBetween => exact wellTyped_of_range? hexpr
  | date | year | month => exact wellTyped_of_temporal? hexpr

theorem wellTyped_of_plain? (hblank : Text.isBlankText operand = false)
    (hexpr : target.plain? operand = some expr) : target.column.WellTyped target.type expr := by
  rw [plain?] at hexpr
  split at hexpr
  · exact wellTyped_of_pattern? hexpr
  · exact wellTyped_of_pattern? hexpr
  · exact wellTyped_of_comparison? hblank hexpr

theorem wellTyped_of_condition? {mode : DefaultMatch} {leaf : Leaf}
    (htrimmed : Text.trimmed leaf.operand = leaf.operand)
    (hexpr : target.condition? mode leaf = some expr) :
    target.column.WellTyped target.type expr := by
  unfold condition? at hexpr
  split at hexpr
  next => cases hexpr
  next hsome =>
    have hblank : Text.isBlankText leaf.operand = false := by
      rw [← Text.isEmpty_trimmed, htrimmed]
      exact Bool.eq_false_iff.mpr hsome
    split at hexpr
    · exact wellTyped_of_operation? hblank hexpr
    · exact wellTyped_of_plain? hblank hexpr
    · exact wellTyped_of_comparison? hblank hexpr

/-- What stands in a place is neither absent nor a document. -/
theorem Fits.isPresent {place : Place} (hfits : target.Fits place) :
    place.value ≠ .null ∧ ∀ document, place.value ≠ .json document := by
  cases hfits with
  | compared htakes => exact htakes.isPresent
  | pattern | datePart => exact ⟨nofun, nofun⟩

theorem type_of_ofCast? {column : ColumnName} {cast : String}
    (htarget : ofCast? column cast = some target) : target.type = ColumnType.ofCast? cast := by
  rw [ofCast?] at htarget
  split at htarget
  next hblank =>
    cases htarget
    exact (ColumnType.ofCast?_of_isBlankText hblank).symm
  next =>
    obtain ⟨type, htype, rfl⟩ := Option.map_eq_some_iff.mp htarget
    exact htype.symm

end Target

/-- The operand of a filter value has no blanks about it. -/
theorem Leaf.trimmed_operand_ofText (raw : String) :
    Text.trimmed (ofText raw).operand = (ofText raw).operand := by
  unfold ofText
  dsimp only
  split
  next operator rest hfound =>
    obtain ⟨other, -, hafter⟩ := List.exists_of_findSome?_eq_some hfound
    obtain ⟨after, -, hpair⟩ := Option.map_eq_some_iff.mp hafter
    cases hpair
    split <;> exact Text.trimmed_ofList_trim _
  next => exact Text.trimmed_ofList_trim _

/-- Without a type that the cast names there is no condition.  In the condition of a filter value
every value fits its place, the column alone is mentioned, and no value is absent or a document. -/
theorem ColumnName.condition?_isWellTyped (column : ColumnName) (cast raw : String)
    (mode : DefaultMatch) :
    (Text.isBlankText cast = false → ColumnType.ofCast? cast = none →
      column.condition? cast raw mode = none) ∧
    ∀ expr, column.condition? cast raw mode = some expr →
      column.WellTyped (ColumnType.ofCast? cast) expr ∧
      (∀ name, expr.Mentions name → name = column) ∧
      ∀ value ∈ expr.values, value ≠ .null ∧ ∀ document, value ≠ .json document := by
  constructor
  · intro hblank hcast
    rw [condition?, Target.ofCast?, if_neg (Bool.eq_false_iff.mp hblank), hcast]
    rfl
  · intro expr hexpr
    have hform := form_of_condition? hexpr
    obtain ⟨target, htarget, htyped⟩ := Option.bind_eq_some_iff.mp hexpr
    refine ⟨?_, fun name => eq_of_mentions hexpr, ?_⟩
    · rw [← Target.column_of_ofCast? htarget, ← Target.type_of_ofCast? htarget]
      exact Target.wellTyped_of_condition? (Leaf.trimmed_operand_ofText raw) htyped
    · intro value hvalue
      rw [← hform.map_value_places] at hvalue
      obtain ⟨place, hplace, rfl⟩ := List.mem_map.mp hvalue
      exact (Target.fits_of_condition? htyped hplace).isPresent

namespace WellTyped

/-- The time of an order. -/
def orderedAt : ColumnName := ⟨some "orders", "ordered_at"⟩

/-- The test of a leap day is well typed, and a cast that names no type makes no condition. -/
theorem isWellTyped_orderedAt :
    (∃ expr, orderedAt.condition? "datetime" "date:240229" .byType = some expr ∧
      orderedAt.WellTyped (some .temporal) expr) ∧
    orderedAt.condition? "blob" "date:240229" .byType = none := by
  have hcast : ColumnType.ofCast? "datetime" = some .temporal := by decide +kernel
  have hblob : ColumnType.ofCast? "blob" = none := by decide +kernel
  have hday : ∃ expr, orderedAt.condition? "datetime" "date:240229" .byType = some expr :=
    ⟨_, rfl⟩
  constructor
  · obtain ⟨expr, hexpr⟩ := hday
    have htyped := ColumnName.condition?_isWellTyped orderedAt "datetime" "date:240229" .byType
    rw [hcast] at htyped
    exact ⟨expr, hexpr, (htyped.2 expr hexpr).1⟩
  · have htyped := ColumnName.condition?_isWellTyped orderedAt "blob" "date:240229" .byType
    exact htyped.1 rfl hblob

end WellTyped

end FilterSql

/-
The forms that conditions on a column have.

A filter value compares the column, matches its text with a pattern, looks it up in a list
or a range, or compares parts of its date, all of them at once.
-/
import FilterSql.Filter.Condition
import FilterSql.Proofs.Text.Cuts

namespace FilterSql

/-- A part of the date of a column compared with a number. -/
def ColumnName.partIs (column : ColumnName) (part : DatePart) (n : Int64) : Expr :=
  .binary .eq (.datePart part (.column column)) (.value (.int n))

/-- An expression that a filter value may make of a column. -/
inductive ColumnName.Form (column : ColumnName) : Expr → Prop
  | comparison {op : BinaryOp} {operator : Operator} (value : Value)
      (hop : Target.comparisonOp? operator = some op) :
      Form column (.binary op (.column column) (.value value))
  | lowered (pattern : Value) :
      Form column (.binary .like (.call "LOWER" [.column column]) (.value pattern))
  | text (pattern : Value) :
      Form column (.binary .like (.castText (.column column)) (.value pattern))
  | list {values : List Value} (negated : Bool) (hvalues : values ≠ []) :
      Form column (.inList (.column column) (values.map .value) negated)
  | range (low high : Value) (negated : Bool) :
      Form column (.between (.column column) (.value low) (.value high) negated)
  | datePart (part : DatePart) (value : Value) :
      Form column (.binary .eq (.datePart part (.column column)) (.value value))
  | and {left right : Expr} (hleft : Form column left) (hright : Form column right) :
      Form column (left.and right)

theorem ColumnType.ofCast?_of_isBlankText {cast : String} (hblank : Text.isBlankText cast = true) :
    ofCast? cast = none := by
  have hchars : ∀ c ∈ cast.toList.takeWhile (· != ':'), Text.isBlank c = true := by
    intro c hc
    exact List.all_eq_true.mp hblank c (List.takeWhile_sublist _ |>.mem hc)
  have hname : castName cast = "" := by
    rw [castName, Text.trim, Text.strip_eq_nil_iff.mpr hchars]
    rfl
  rw [ofCast?, hname]
  rfl

namespace Target

variable {target : Target} {operator : Operator} {operand : String} {expr : Expr}

theorem form_of_comparison? (hexpr : target.comparison? operator operand = some expr) :
    target.column.Form expr := by
  simp only [comparison?, Option.bind_eq_bind, Option.bind_eq_some_iff] at hexpr
  obtain ⟨op, hop, value, -, hexpr⟩ := hexpr
  cases hexpr
  exact .comparison value hop

theorem form_of_pattern? (hexpr : target.pattern? operator operand = some expr) :
    target.column.Form expr := by
  simp only [pattern?, Option.bind_eq_bind, Option.bind_eq_some_iff] at hexpr
  obtain ⟨pattern, -, hexpr⟩ := hexpr
  split at hexpr <;> cases hexpr
  · exact .lowered _
  · exact .text _

theorem form_of_list? (hexpr : target.list? operator operand = some expr) :
    target.column.Form expr := by
  simp only [list?, Option.bind_eq_bind, Option.bind_eq_some_iff] at hexpr
  obtain ⟨negated, -, hexpr⟩ := hexpr
  split at hexpr
  · cases hexpr
  next hsome =>
    cases hexpr
    exact .list negated fun hnil => hsome (List.isEmpty_iff.mpr hnil)

theorem form_of_range? (hexpr : target.range? operator operand = some expr) :
    target.column.Form expr := by
  simp only [range?, Option.bind_eq_bind, Option.bind_eq_some_iff] at hexpr
  obtain ⟨negated, -, hexpr⟩ := hexpr
  split at hexpr
  · obtain ⟨bounds, -, hexpr⟩ := Option.bind_eq_some_iff.mp hexpr
    cases hexpr
    exact .range bounds.1 bounds.2 negated
  · cases hexpr

/-- What holds of the test of each part, and of two expressions together where it holds of both,
holds of the condition on all parts. -/
theorem of_temporal? (P : Expr → Prop)
    (hand : ∀ left right, P left → P right → P (left.and right))
    (hpart : target.type = some .temporal → ∀ parts, dateParts? operand operator = some parts →
      ∀ part ∈ parts, P (.binary .eq (.datePart part.1 target.expr)
        (.value (.int (Int64.ofInt part.2)))))
    (hexpr : target.temporal? operator operand = some expr) : P expr := by
  rw [temporal?] at hexpr
  split at hexpr
  next htemporal =>
    obtain ⟨parts, hparts, hexpr⟩ := Option.bind_eq_some_iff.mp hexpr
    have htest := hpart htemporal parts hparts
    cases parts with
    | nil => cases hexpr
    | cons first rest =>
        cases hexpr
        refine List.foldlRecOn _ _ (htest first List.mem_cons_self) ?_
        intro sofar hsofar other hother
        obtain ⟨part, hmem, rfl⟩ := List.mem_map.mp hother
        exact hand sofar _ hsofar (htest part (List.mem_cons_of_mem first hmem))
  next => cases hexpr

theorem form_of_temporal? (hexpr : target.temporal? operator operand = some expr) :
    target.column.Form expr := by
  refine of_temporal? target.column.Form ?_ ?_ hexpr
  · intro left right hleft hright
    exact hleft.and hright
  · intro _ parts _ part _
    exact .datePart part.1 _

theorem form_of_operation? (hexpr : target.operation? operator operand = some expr) :
    target.column.Form expr := by
  cases operator with
  | notEq | not | eq | gtEq | ltEq | gt | lt => exact form_of_comparison? hexpr
  | startsWith | contains | endsWith => exact form_of_pattern? hexpr
  | inList | notInList => exact form_of_list? hexpr
  | between | notBetween => exact form_of_range? hexpr
  | date | year | month => exact form_of_temporal? hexpr

theorem form_of_plain? (hexpr : target.plain? operand = some expr) : target.column.Form expr := by
  rw [plain?] at hexpr
  split at hexpr
  · exact form_of_pattern? hexpr
  · exact form_of_pattern? hexpr
  · exact form_of_comparison? hexpr

theorem form_of_condition? {mode : DefaultMatch} {leaf : Leaf}
    (hexpr : target.condition? mode leaf = some expr) : target.column.Form expr := by
  unfold condition? at hexpr
  split at hexpr
  · cases hexpr
  · split at hexpr
    · exact form_of_operation? hexpr
    · exact form_of_plain? hexpr
    · exact form_of_comparison? hexpr

theorem column_of_ofCast? {column : ColumnName} {cast : String}
    (htarget : ofCast? column cast = some target) : target.column = column := by
  rw [ofCast?] at htarget
  split at htarget
  · cases htarget
    rfl
  · obtain ⟨type, -, rfl⟩ := Option.map_eq_some_iff.mp htarget
    rfl

/-- A cast that names a type gives a target of this type. -/
theorem ofCast?_of_type {cast : String} {type : ColumnType}
    (hcast : ColumnType.ofCast? cast = some type) (column : ColumnName) :
    ofCast? column cast = some ⟨column, some type⟩ := by
  rw [ofCast?, hcast]
  split
  next hblank =>
    rw [ColumnType.ofCast?_of_isBlankText hblank] at hcast
    cases hcast
  next => rfl

end Target

/-- Whatever a filter value asks for, its condition has one of the forms. -/
theorem ColumnName.form_of_condition? {column : ColumnName} {cast raw : String}
    {mode : DefaultMatch} {expr : Expr} (hexpr : column.condition? cast raw mode = some expr) :
    column.Form expr := by
  obtain ⟨target, htarget, hexpr⟩ := Option.bind_eq_some_iff.mp hexpr
  rw [← Target.column_of_ofCast? htarget]
  exact Target.form_of_condition? hexpr

end FilterSql

/-
The values in the condition of a filter value.

Every value of a condition stands beside something: the column itself, its text, or a part
of its date.  What it stands beside and the type of the column tell which values can stand
there.
-/
import Mathlib.Data.String.Basic
import FilterSql.Proofs.Filter.ConditionForms
import FilterSql.Proofs.Number.Digits
import FilterSql.Proofs.Sql.Nodes

namespace FilterSql

/-- What a value of a condition is held against. -/
inductive Side
  | column
  | text
  | datePart
deriving DecidableEq, Repr

/-- A value of a condition with what it is held against. -/
structure Place where
  side : Side
  value : Value

namespace Expr

/-- What an expression is, as the other side of a value. -/
def side : Expr → Side
  | call _ _ => .text
  | castText _ => .text
  | datePart _ _ => .datePart
  | _ => .column

/-- The values among expressions, held against another one. -/
def against (expr : Expr) (others : List Expr) : List Place :=
  (others.filterMap value?).map (Place.mk expr.side)

/-- The values of a condition with what they are held against, in the order they are
written. -/
def places : Expr → List Place
  | binary .and left right => left.places ++ right.places
  | binary .or left right => left.places ++ right.places
  | binary _ left right => left.against [right]
  | inList expr items _ => expr.against items
  | between expr low high _ => expr.against [low, high]
  | _ => []

theorem filterMap_value? (values : List Value) : (values.map value).filterMap value? = values := by
  induction values with
  | nil => rfl
  | cons head tail ih => simp [value?, ih]

theorem map_value_against (expr : Expr) (others : List Expr) :
    (expr.against others).map Place.value = others.filterMap value? := by
  simp [against, Function.comp_def]

theorem mem_against_values {expr : Expr} {values : List Value} {place : Place}
    (hplace : place ∈ expr.against (values.map value)) :
    ∃ value ∈ values, place = ⟨expr.side, value⟩ := by
  rw [against, filterMap_value?] at hplace
  obtain ⟨value, hvalue, rfl⟩ := List.mem_map.mp hplace
  exact ⟨value, hvalue, rfl⟩

end Expr

theorem Target.places_binary {operator : Operator} {op : BinaryOp}
    (hop : comparisonOp? operator = some op) (left right : Expr) :
    (Expr.binary op left right).places = left.against [right] := by
  cases operator <;> cases hop <;> rfl

/-- Every value of a condition has its place. -/
theorem ColumnName.Form.map_value_places {column : ColumnName} {expr : Expr}
    (hform : column.Form expr) : expr.places.map Place.value = expr.values := by
  induction hform with
  | comparison value hop =>
      rw [Target.places_binary hop, Expr.map_value_against]
      rfl
  | lowered pattern => rfl
  | text pattern => rfl
  | @list values negated hvalues =>
      have hitems : (values.map Expr.value).flatMap Expr.values = values := by
        rw [List.flatMap_map]
        exact List.flatMap_singleton' values
      rw [Expr.places, Expr.map_value_against, Expr.values_inList, hitems,
        Expr.filterMap_value?]
      rfl
  | range low high negated => rfl
  | datePart part value => rfl
  | and hleft hright ihleft ihright =>
      rw [Expr.and, Expr.places, List.map_append, ihleft, ihright, Expr.values_binary]

/-- The values that a column of a type is compared with; one without a type is compared
with texts. -/
inductive ColumnType.Takes : Option ColumnType → Value → Prop
  | int (n : Int64) : Takes (some .int) (.int n)
  | decimal {x : Binary64} (hfinite : x.isFinite = true) : Takes (some .int) (.float x)
  | float {x : Binary64} (hfinite : x.isFinite = true) : Takes (some .float) (.float x)
  | bool (b : Bool) : Takes (some .bool) (.boolean b)
  | date (date : Date) : Takes (some .temporal) (.date date)
  | timestamp (stamp : Timestamp) : Takes (some .temporal) (.timestamp stamp)
  | string (s : String) : Takes (some .string) (.string s)
  | anyText (s : String) : Takes none (.string s)

theorem daysInMonth_le (year : Int) (month : Nat) : daysInMonth year month ≤ 31 := by
  unfold daysInMonth
  grind

namespace Operand

variable {raw : String} {value : Value}

theorem exists_of_float? {cs : List Char} (hvalue : float? cs = some value) :
    ∃ x : Binary64, x.isFinite = true ∧ value = .float x := by
  obtain ⟨x, hx, rfl⟩ := Option.map_eq_some_iff.mp hvalue
  exact ⟨x, (Option.filter_eq_some_iff.mp hx).2, rfl⟩

theorem takes_of_numeric_int (hvalue : numeric? raw .int = some value) :
    ColumnType.Takes (some .int) value := by
  delta numeric? at hvalue
  dsimp only at hvalue
  split at hvalue
  · cases hvalue
    exact .int _
  · obtain ⟨x, hfinite, rfl⟩ := exists_of_float? hvalue
    exact .decimal hfinite

theorem takes_of_numeric_float (hvalue : numeric? raw .float = some value) :
    ColumnType.Takes (some .float) value := by
  obtain ⟨x, hfinite, rfl⟩ := exists_of_float? hvalue
  exact .float hfinite

theorem takes_of_temporal? (hvalue : temporal? raw = some value) :
    ColumnType.Takes (some .temporal) value := by
  simp only [temporal?] at hvalue
  split at hvalue
  · cases hvalue
    exact .timestamp _
  · obtain ⟨date, -, rfl⟩ := Option.map_eq_some_iff.mp hvalue
    exact .date date

/-- A text read as a value of a type is one that columns of the type are compared with. -/
theorem takes_of_scalar? {type : Option ColumnType} (hvalue : scalar? type raw = some value) :
    ColumnType.Takes type value := by
  unfold scalar? at hvalue
  split at hvalue
  · exact takes_of_numeric_int hvalue
  · exact takes_of_numeric_float hvalue
  · obtain ⟨b, -, rfl⟩ := Option.map_eq_some_iff.mp hvalue
    exact .bool b
  · exact takes_of_temporal? hvalue
  · cases hvalue
    exact .string _
  · cases hvalue
    exact .anyText _

theorem length_le_utf8Len (cs : List Char) : cs.length ≤ String.utf8Len cs := by
  induction cs with
  | nil => simp
  | cons c cs ih =>
      have hpos := c.utf8Size_pos
      rw [List.length_cons, String.utf8Len_cons]
      omega

/-- A year has at most four digits. -/
theorem natAbs_fullYear?_lt {digits : String} {year : Int} (hyear : fullYear? digits = some year) :
    year.natAbs < 10000 := by
  have hlength : digits.toList.length ≤ digits.utf8ByteSize := by
    calc digits.toList.length ≤ String.utf8Len digits.toList := length_le_utf8Len _
      _ = digits.utf8ByteSize := by rw [← String.utf8ByteSize_ofList, String.ofList_toList]
  have hbound : ∀ cs : List Char, cs.length ≤ 4 → Number.readInt? cs = some year →
      year.natAbs < 10000 := by
    intro cs hcs hread
    calc year.natAbs < 10 ^ cs.length := Number.natAbs_readInt?_lt hread
      _ ≤ 10 ^ 4 := Nat.pow_le_pow_right (by decide) hcs
  unfold fullYear? at hyear
  split at hyear
  · refine hbound _ ?_ hyear
    simp only [List.length_cons]
    omega
  · split at hyear
    · exact hbound _ (by omega) hyear
    · cases hyear

theorem natAbs_year_compactDate?_lt {date : Date} (hdate : compactDate? raw = some date) :
    date.year.natAbs < 10000 := by
  simp only [compactDate?] at hdate
  split at hdate
  · obtain ⟨year, hyear, hdate⟩ := Option.bind_eq_some_iff.mp hdate
    obtain ⟨month, -, hdate⟩ := Option.bind_eq_some_iff.mp hdate
    obtain ⟨day, -, hdate⟩ := Option.bind_eq_some_iff.mp hdate
    unfold Date.ofYmd? at hdate
    split at hdate <;> cases hdate
    exact natAbs_fullYear?_lt hyear
  · cases hdate

theorem natAbs_compactYear?_lt {year : Int} (hyear : compactYear? raw = some year) :
    year.natAbs < 10000 := by
  simp only [compactYear?] at hyear
  split at hyear
  · exact natAbs_fullYear?_lt hyear
  · cases hyear

/-- The year of a code has at most four digits, and the month is one of the twelve. -/
theorem bounds_of_compactMonth? {month : Int × Nat} (hmonth : compactMonth? raw = some month) :
    month.1.natAbs < 10000 ∧ 1 ≤ month.2 ∧ month.2 ≤ 12 := by
  simp only [compactMonth?] at hmonth
  split at hmonth
  · obtain ⟨n, hn, hmonth⟩ := Option.bind_eq_some_iff.mp hmonth
    obtain ⟨year, hyear, hmonth⟩ := Option.bind_eq_some_iff.mp hmonth
    cases hmonth
    have hrange := (Option.filter_eq_some_iff.mp hn).2
    simp only [Bool.and_eq_true, decide_eq_true_eq] at hrange
    exact ⟨natAbs_fullYear?_lt hyear, hrange⟩
  · cases hmonth

end Operand

namespace Target

/-- The places that a condition on a target may have. -/
inductive Fits (target : Target) : Place → Prop
  | compared {value : Value} (htakes : ColumnType.Takes target.type value) :
      Fits target ⟨.column, value⟩
  | pattern (s : String) : Fits target ⟨.text, .string s⟩
  | datePart {n : Int} (htemporal : target.type = some .temporal) (hn : n.natAbs < 10000) :
      Fits target ⟨.datePart, .int (Int64.ofInt n)⟩

variable {target : Target} {operator : Operator} {operand : String} {expr : Expr} {place : Place}

theorem fits_of_comparison? (hexpr : target.comparison? operator operand = some expr)
    (hplace : place ∈ expr.places) : target.Fits place := by
  obtain ⟨op, hop, hexpr⟩ := Option.bind_eq_some_iff.mp hexpr
  obtain ⟨value, hvalue, hexpr⟩ := Option.bind_eq_some_iff.mp hexpr
  cases hexpr
  rw [places_binary hop] at hplace
  cases List.mem_singleton.mp hplace
  exact .compared (Operand.takes_of_scalar? hvalue)

theorem fits_of_pattern? (hexpr : target.pattern? operator operand = some expr)
    (hplace : place ∈ expr.places) : target.Fits place := by
  obtain ⟨pattern, -, hexpr⟩ := Option.bind_eq_some_iff.mp hexpr
  split at hexpr <;> cases hexpr <;> cases List.mem_singleton.mp hplace
  · exact .pattern _
  · exact .pattern _

theorem fits_of_list? (hexpr : target.list? operator operand = some expr)
    (hplace : place ∈ expr.places) : target.Fits place := by
  simp only [list?, Option.bind_eq_bind, Option.bind_eq_some_iff] at hexpr
  obtain ⟨negated, -, hexpr⟩ := hexpr
  split at hexpr
  · cases hexpr
  · cases hexpr
    obtain ⟨value, hvalue, rfl⟩ := Expr.mem_against_values hplace
    obtain ⟨entry, -, hvalue⟩ := List.mem_filterMap.mp hvalue
    exact .compared (Operand.takes_of_scalar? hvalue)

/-- Both ends of a range are values of the type. -/
theorem takes_of_bounds? {type : Option ColumnType} {low high : String} {ends : Value × Value}
    (hends : bounds? type low high = some ends) :
    ColumnType.Takes type ends.1 ∧ ColumnType.Takes type ends.2 := by
  unfold bounds? at hends
  split at hends
  next htemporal =>
    obtain ⟨first, -, hends⟩ := Option.bind_eq_some_iff.mp hends
    obtain ⟨last, -, hends⟩ := Option.bind_eq_some_iff.mp hends
    cases hends
    rw [htemporal]
    exact ⟨.date first, .timestamp _⟩
  · obtain ⟨first, hfirst, hends⟩ := Option.bind_eq_some_iff.mp hends
    obtain ⟨last, hlast, hends⟩ := Option.bind_eq_some_iff.mp hends
    cases hends
    exact ⟨Operand.takes_of_scalar? hfirst, Operand.takes_of_scalar? hlast⟩

theorem fits_of_range? (hexpr : target.range? operator operand = some expr)
    (hplace : place ∈ expr.places) : target.Fits place := by
  obtain ⟨negated, -, hexpr⟩ := Option.bind_eq_some_iff.mp hexpr
  split at hexpr
  · obtain ⟨ends, hends, hexpr⟩ := Option.bind_eq_some_iff.mp hexpr
    cases hexpr
    obtain ⟨hlow, hhigh⟩ := takes_of_bounds? hends
    have hplace : place = ⟨.column, ends.1⟩ ∨ place = ⟨.column, ends.2⟩ := by
      simpa [Expr.places, Expr.against, Expr.value?, expr, Expr.side] using hplace
    rcases hplace with rfl | rfl
    · exact .compared hlow
    · exact .compared hhigh
  · cases hexpr

/-- The numbers of a date, of a month and of a year are small. -/
theorem natAbs_dateParts?_lt {parts : List (DatePart × Int)}
    (hparts : dateParts? operand operator = some parts) :
    ∀ part ∈ parts, part.2.natAbs < 10000 := by
  unfold dateParts? at hparts
  split at hparts
  · obtain ⟨date, hdate, hparts⟩ := Option.bind_eq_some_iff.mp hparts
    cases hparts
    have hyear := Operand.natAbs_year_compactDate?_lt hdate
    obtain ⟨-, -, -, hmonth, -, hday⟩ := date.isDate
    have hdays := daysInMonth_le date.year date.month
    simp only [List.forall_mem_cons, List.not_mem_nil, false_imp_iff, implies_true, and_true,
      Int.natAbs_natCast]
    omega
  · obtain ⟨year, hyear, hparts⟩ := Option.bind_eq_some_iff.mp hparts
    cases hparts
    simpa using Operand.natAbs_compactYear?_lt hyear
  · obtain ⟨month, hmonth, hparts⟩ := Option.bind_eq_some_iff.mp hparts
    cases hparts
    obtain ⟨hyear, -, hnumber⟩ := Operand.bounds_of_compactMonth? hmonth
    simp only [List.forall_mem_cons, List.not_mem_nil, false_imp_iff, implies_true, and_true,
      Int.natAbs_natCast]
    omega
  · cases hparts

theorem fits_of_temporal? (hexpr : target.temporal? operator operand = some expr)
    (hplace : place ∈ expr.places) : target.Fits place := by
  have hfits : ∀ place ∈ expr.places, target.Fits place := by
    refine of_temporal? (fun expr => ∀ place ∈ expr.places, target.Fits place) ?_ ?_ hexpr
    · intro left right hleft hright place hplace
      rcases List.mem_append.mp hplace with hplace | hplace
      · exact hleft place hplace
      · exact hright place hplace
    · intro htemporal parts hparts part hpart place hplace
      cases List.mem_singleton.mp hplace
      exact .datePart htemporal (natAbs_dateParts?_lt hparts part hpart)
  exact hfits place hplace

theorem fits_of_operation? (hexpr : target.operation? operator operand = some expr)
    (hplace : place ∈ expr.places) : target.Fits place := by
  cases operator with
  | notEq | not | eq | gtEq | ltEq | gt | lt => exact fits_of_comparison? hexpr hplace
  | startsWith | contains | endsWith => exact fits_of_pattern? hexpr hplace
  | inList | notInList => exact fits_of_list? hexpr hplace
  | between | notBetween => exact fits_of_range? hexpr hplace
  | date | year | month => exact fits_of_temporal? hexpr hplace

theorem fits_of_plain? (hexpr : target.plain? operand = some expr)
    (hplace : place ∈ expr.places) : target.Fits place := by
  rw [plain?] at hexpr
  split at hexpr
  · exact fits_of_pattern? hexpr hplace
  · exact fits_of_pattern? hexpr hplace
  · exact fits_of_comparison? hexpr hplace

/-- In the condition of a filter value every value fits its place. -/
theorem fits_of_condition? {mode : DefaultMatch} {leaf : Leaf}
    (hexpr : target.condition? mode leaf = some expr) (hplace : place ∈ expr.places) :
    target.Fits place := by
  unfold condition? at hexpr
  split at hexpr
  · cases hexpr
  · split at hexpr
    · exact fits_of_operation? hexpr hplace
    · exact fits_of_plain? hexpr hplace
    · exact fits_of_comparison? hexpr hplace

end Target

end FilterSql

/-
Conditions whose values can be bound.

The database takes a value beside a column as the type of the column, one beside a text as a
text, and one beside a part of a date as an integer.  A filter value that makes a condition
makes one whose values can all be bound that way, except for a fractional double beside an
integer column: the condition has it, but no integer type has a place for it.
-/
import FilterSql.Postgres.Bind
import FilterSql.Proofs.Filter.ConditionValues

namespace FilterSql

/-- A double that is no whole number. -/
def Value.IsFractional : Value → Prop
  | float x => x.isWhole = false
  | _ => False

namespace Postgres

namespace SqlType

/-- The type of a column in the database, by the type that filters see. -/
def ofColumnType : ColumnType → SqlType
  | .string => text
  | .int => int8
  | .float => float8
  | .bool => bool
  | .temporal => timestamp

/-- The type of a column by its cast; one without a type holds text. -/
def ofCast (cast : String) : SqlType :=
  ((ColumnType.ofCast? cast).map ofColumnType).getD text

/-- The type that the database takes a value for, by what the value is held against. -/
def ofSide (columnType : SqlType) : Side → SqlType
  | .column => columnType
  | .text => text
  | .datePart => int4

theorem ofCast_of_target {column : ColumnName} {cast : String} {target : Target}
    (htarget : Target.ofCast? column cast = some target) :
    ofCast cast = (target.type.map ofColumnType).getD text := by
  unfold Target.ofCast? at htarget
  split at htarget
  next hblank =>
    cases htarget
    rw [ofCast, ColumnType.ofCast?_of_isBlankText hblank]
  · obtain ⟨type, htype, rfl⟩ := Option.map_eq_some_iff.mp htarget
    rw [ofCast, htype]

end SqlType

/-- A value can be bound as a type, and then with bytes. -/
def Binds (value : Value) (type : SqlType) : Prop :=
  ∃ bytes, bind value type = .ok (some bytes)

/-- An integer that the bytes of a type can hold is bound as it is. -/
theorem bindInWidth_of_lt {n : Int} {width : Nat} (hlow : -((256 ^ width / 2 : Nat) : Int) ≤ n)
    (hhigh : n < ((256 ^ width / 2 : Nat) : Int)) :
    bindInWidth n width = .ok (Bytes.ofInt width n) :=
  if_pos ⟨hlow, hhigh⟩

theorem bindInt_int8 (n : Int64) : bindInt n .int8 = .ok (Bytes.ofInt 8 n.toInt) :=
  bindInWidth_of_lt n.le_toInt n.toInt_lt

theorem bindInt_int4 {n : Int} (hn : n.natAbs < 10000) :
    bindInt (Int64.ofInt n) .int4 = .ok (Bytes.ofInt 4 n) := by
  have htoInt : (Int64.ofInt n).toInt = n :=
    Int64.toInt_ofInt_of_le (by omega) (by omega)
  calc bindInt (Int64.ofInt n) .int4 = bindInWidth (Int64.ofInt n).toInt 4 := rfl
    _ = bindInWidth n 4 := by rw [htoInt]
    _ = .ok (Bytes.ofInt 4 n) := bindInWidth_of_lt (by omega) (by omega)

theorem binds_float_int8_iff (x : Binary64) : Binds (.float x) .int8 ↔ x.isWhole = true := by
  have hbind : bind (.float x) .int8 =
      (if x.isWhole then bindInt x.toInt64 .int8 else .error (.notWhole x .int8)).map some := rfl
  rw [Binds, hbind]
  cases x.isWhole with
  | true =>
      rw [if_pos rfl, bindInt_int8]
      exact iff_of_true ⟨_, rfl⟩ rfl
  | false =>
      rw [if_neg Bool.false_ne_true]
      exact iff_of_false (fun ⟨_, hbytes⟩ => nomatch hbytes) Bool.false_ne_true

/-- A value that a column is compared with is bound as the type of the column, if it is no
fractional double beside an integer column. -/
theorem binds_iff_of_takes {type : Option ColumnType} {value : Value}
    (htakes : ColumnType.Takes type value) :
    Binds value ((type.map SqlType.ofColumnType).getD .text) ↔
      ¬((type.map SqlType.ofColumnType).getD .text = .int8 ∧ value.IsFractional) := by
  cases htakes with
  | int n => exact iff_of_true ⟨_, congrArg (Except.map some) (bindInt_int8 n)⟩ fun h => h.2
  | @decimal x hfinite =>
      have hint : ((some ColumnType.int).map SqlType.ofColumnType).getD .text = .int8 := rfl
      rw [hint, binds_float_int8_iff]
      simp [Value.IsFractional]
  | float hfinite => exact iff_of_true ⟨_, rfl⟩ fun h => nomatch h.1
  | bool b => exact iff_of_true ⟨_, rfl⟩ fun h => h.2
  | date date => exact iff_of_true ⟨_, rfl⟩ fun h => h.2
  | timestamp stamp => exact iff_of_true ⟨_, rfl⟩ fun h => h.2
  | string s => exact iff_of_true ⟨_, rfl⟩ fun h => h.2
  | anyText s => exact iff_of_true ⟨_, rfl⟩ fun h => h.2

/-- A value that fits its place is bound as the type of the place, if it is no fractional
double beside an integer column. -/
theorem binds_iff_of_fits {target : Target} {place : Place} (hfits : target.Fits place) :
    Binds place.value
        (((target.type.map SqlType.ofColumnType).getD .text).ofSide place.side) ↔
      ¬(((target.type.map SqlType.ofColumnType).getD .text).ofSide place.side = .int8 ∧
        place.value.IsFractional) := by
  cases hfits with
  | compared htakes => exact binds_iff_of_takes htakes
  | pattern s => exact iff_of_true ⟨_, rfl⟩ fun h => h.2
  | datePart htemporal hn =>
      exact iff_of_true ⟨_, congrArg (Except.map some) (bindInt_int4 hn)⟩ fun h => h.2

end Postgres

/-- In the condition of a filter value every value has its place, and it is bound as the type
of that place, unless it is a fractional double and the type is an integer one. -/
theorem ColumnName.binds_of_condition? {column : ColumnName} {cast raw : String}
    {mode : DefaultMatch} {expr : Expr} (hexpr : column.condition? cast raw mode = some expr) :
    expr.places.map Place.value = expr.values ∧
      ∀ place ∈ expr.places,
        (Postgres.Binds place.value ((Postgres.SqlType.ofCast cast).ofSide place.side) ↔
          ¬((Postgres.SqlType.ofCast cast).ofSide place.side = .int8 ∧
            place.value.IsFractional)) := by
  have hform := ColumnName.form_of_condition? hexpr
  obtain ⟨target, htarget, hexpr⟩ := Option.bind_eq_some_iff.mp hexpr
  refine ⟨hform.map_value_places, ?_⟩
  intro place hplace
  rw [Postgres.SqlType.ofCast_of_target htarget]
  exact Postgres.binds_iff_of_fits (Target.fits_of_condition? hexpr hplace)

namespace BoundConditions

/-- The age of a user. -/
def age : ColumnName := ⟨some "users", "age"⟩

/-- Four and a half. -/
def fraction : Binary64 := ⟨0x4012000000000000⟩

theorem ofCast?_age : Target.ofCast? age "int" = some ⟨age, some .int⟩ := by
  decide +kernel

theorem ofCast_int : Postgres.SqlType.ofCast "int" = .int8 := by
  decide +kernel

theorem scalar?_fraction : Operand.scalar? (some .int) "4.5" = some (.float fraction) := by
  have hint : Number.readInt64? (Text.trim "4.5".toList) = none := by decide +kernel
  have hdouble : (Number.readBinary64? (Text.trim "4.5".toList)).filter Binary64.isFinite =
      some fraction := by decide +kernel
  delta Operand.scalar? Operand.numeric? Operand.float?
  dsimp only
  rw [hint, hdouble]
  rfl

/-- Of a list of two ages the whole one is bound and the fractional one is not. -/
theorem binds_of_ages :
    ∃ expr, age.condition? "int" "in:30,4.5" .byType = some expr ∧
      expr.values = [.int 30, .float fraction] ∧
      Postgres.Binds (.int 30) .int8 ∧ ¬Postgres.Binds (.float fraction) .int8 := by
  have hleaf : Leaf.ofText "in:30,4.5" = ⟨some .inList, "30,4.5"⟩ := by decide +kernel
  have hentries : Target.entries "30,4.5" = ["30", "4.5"] := by decide +kernel
  have hwhole : Operand.scalar? (some .int) "30" = some (.int 30) := rfl
  have hexpr : age.condition? "int" "in:30,4.5" .byType =
      some (.inList (.column age) [.value (.int 30), .value (.float fraction)] false) := by
    rw [ColumnName.condition?, ofCast?_age, hleaf]
    show Target.list? ⟨age, some .int⟩ .inList "30,4.5" = _
    simp only [Target.list?, hentries, List.filterMap_cons, hwhole, scalar?_fraction]
    rfl
  obtain ⟨hvalues, hbinds⟩ := ColumnName.binds_of_condition? hexpr
  rw [ofCast_int] at hbinds
  refine ⟨_, hexpr, hvalues.symm, ?_, ?_⟩
  · exact (hbinds ⟨.column, .int 30⟩ (.head _)).mpr fun h => h.2
  · intro hbind
    have hfractional : fraction.isWhole = false := by decide +kernel
    exact (hbinds ⟨.column, .float fraction⟩ (.tail _ (.head _))).mp hbind ⟨rfl, hfractional⟩

/-- A fractional age makes a condition, and the value of that condition cannot be bound. -/
theorem not_binds_of_age :
    ∃ expr place, age.condition? "int" "4.5" .byType = some expr ∧ place ∈ expr.places ∧
      Postgres.bind place.value ((Postgres.SqlType.ofCast "int").ofSide place.side) =
        .error (.notWhole fraction .int8) := by
  have hleaf : Leaf.ofText "4.5" = ⟨none, "4.5"⟩ := by decide +kernel
  have hexpr : age.condition? "int" "4.5" .byType =
      some (.binary .eq (.column age) (.value (.float fraction))) := by
    rw [ColumnName.condition?, ofCast?_age, hleaf]
    show Target.comparison? ⟨age, some .int⟩ .eq "4.5" = _
    rw [Target.comparison?, scalar?_fraction]
    rfl
  refine ⟨_, ⟨.column, .float fraction⟩, hexpr, List.mem_cons_self, ?_⟩
  rw [ofCast_int]
  rfl

end BoundConditions

end FilterSql

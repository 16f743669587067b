/-
What a single value makes of a field.

Blanks about the value do not matter.  The predicate either joins nothing and is about the
base table, or it has the one join that the field is searched through and is about the
table joined.
-/
import FilterSql.Proofs.Filter.CleanPredicate
import FilterSql.Proofs.Sql.ReadName

namespace FilterSql

theorem NullCheck.ofText?_trimmed (raw : String) :
    NullCheck.ofText? (Text.trimmed raw) = NullCheck.ofText? raw := by
  simp [NullCheck.ofText?, Text.trimmed]

theorem Leaf.ofText_trimmed (raw : String) : Leaf.ofText (Text.trimmed raw) = Leaf.ofText raw := by
  simp [Leaf.ofText, Text.trimmed]

theorem ColumnName.condition?_trimmed (column : ColumnName) (cast raw : String)
    (mode : DefaultMatch) :
    column.condition? cast (Text.trimmed raw) mode = column.condition? cast raw mode := by
  simp [ColumnName.condition?, Leaf.ofText_trimmed]

theorem RelatedColumn.condition?_trimmed (related : RelatedColumn) (join : Join) (raw : String) :
    related.condition? join (Text.trimmed raw) = related.condition? join raw := by
  simp [RelatedColumn.condition?, ColumnName.condition?_trimmed]

theorem Field.valuePredicate_trimmed (scope : Scope) (field : Field) (raw : String) :
    field.valuePredicate scope (Text.trimmed raw) = field.valuePredicate scope raw := by
  have hrelated : ∀ columns join,
      relatedPredicate columns join (Text.trimmed raw) = relatedPredicate columns join raw := by
    intro columns join
    simp only [relatedPredicate, RelatedColumn.condition?_trimmed]
  have hrelation : ∀ relation key,
      relationPredicate scope field relation key (Text.trimmed raw) =
        relationPredicate scope field relation key raw := by
    intro relation key
    simp only [relationPredicate, ColumnName.condition?_trimmed, hrelated]
  simp only [valuePredicate, NullCheck.ofText?_trimmed, ColumnName.condition?_trimmed, hrelation]

namespace ColumnName

theorem table_of_ofText? {raw : String} (hbare : namesTable raw = false) {name : ColumnName}
    (hname : ofText? raw = some name) : name.table = none := by
  rw [Option.eq_none_iff_forall_ne_some]
  intro table htable
  have hspells := (exists_table_iff_spellsTable hname).mp ⟨table, htable⟩
  rw [namesTable_of_spellsTable hspells] at hbare
  cases hbare

theorem table_of_resolve? {raw table : String} (hbare : namesTable raw = false) {name : ColumnName}
    (hname : resolve? raw table = some name) : name.table = some (sanitized table) := by
  obtain ⟨bare, hbareName, rfl⟩ := Option.map_eq_some_iff.mp hname
  rw [withTable, table_of_ofText? hbare hbareName]

end ColumnName

/-- A node that is no column, or a column of the table. -/
def Expr.IsOfTable (table : String) : Expr → Prop
  | .column name => name.table = some table
  | _ => True

theorem ColumnName.every_isOfTable_of_condition? {column : ColumnName} {table : String}
    (htable : column.table = some table) {cast raw : String} {mode : DefaultMatch} :
    ∀ expr ∈ column.condition? cast raw mode, expr.Every (Expr.IsOfTable table) := by
  intro expr hexpr
  refine Expr.Every.imp (ColumnName.every_condition? hexpr) fun node hnode => ?_
  cases node with
  | column name =>
      cases hnode
      exact htable
  | star | value | binary | call | callStar | named | castText | inList | between | isNull
  | datePart => trivial

theorem Join.table_of_column? {join : Join} (hjoin : IsNameText join.asName) {raw : String}
    (hbare : ColumnName.namesTable raw = false) {name : ColumnName}
    (hname : join.column? raw = some name) : name.table = some join.asName := by
  obtain ⟨target, htarget, rfl⟩ := Option.map_eq_some_iff.mp hname
  have htable := ColumnName.table_of_resolve? hbare htarget
  rw [sanitized_eq_self hjoin] at htable
  split
  · rfl
  · exact htable

namespace Field

/-- A field whose own column and related columns are named without a table. -/
structure HasBareNames (field : Field) : Prop where
  dbColumn : ∀ column ∈ field.dbColumn, ColumnName.namesTable column = false
  related : ∀ columns ∈ field.relatedColumns?, ∀ related ∈ columns,
    ColumnName.namesTable related.column = false

variable {scope : Scope} {field : Field}

theorem table_of_column? (hbare : field.HasBareNames) {key : ColumnName}
    (hkey : field.column? scope = some key) : key.table = some (sanitized scope.table) := by
  obtain ⟨column, hcolumn, hresolved⟩ := Option.bind_eq_some_iff.mp hkey
  exact ColumnName.table_of_resolve? (hbare.dbColumn column hcolumn) hresolved

theorem stable_isOfTable (table : String) :
    Predicate.Stable (fun expr => expr.Every (Expr.IsOfTable table)) fun _ => False where
  and _ _ hleft hright := (Expr.every_binary _ _ _).mpr ⟨trivial, hleft, hright⟩
  or _ _ hleft hright := (Expr.every_binary _ _ _).mpr ⟨trivial, hleft, hright⟩
  outer _ hjoin := hjoin

theorem every_isOfTable_of_matching {columns : List RelatedColumn}
    (hbare : ∀ related ∈ columns, ColumnName.namesTable related.column = false) {join : Join}
    (hjoin : IsNameText join.asName) {raw : String} {condition : Expr}
    (hmatching : Predicate.Assembled (matchingParts columns join raw) (.ofExpr condition)) :
    condition.Every (Expr.IsOfTable join.asName) := by
  have hsatisfies := hmatching.satisfies (stable_isOfTable join.asName) ?_
  · exact hsatisfies.condition condition rfl
  · intro part hpart
    obtain ⟨related, hrelated, column, own, hcolumn, hcompiled, rfl⟩ :=
      exists_of_mem_matchingParts hpart
    have htable := Join.table_of_column? hjoin (hbare related hrelated) hcolumn
    apply Predicate.satisfies_ofOption
    rintro expr ⟨⟩
    exact ColumnName.every_isOfTable_of_condition? htable own hcompiled

/-- The predicate of a value joins nothing and is about the base table, or it has the one join
that the field is searched through and is about the table joined. -/
theorem valuePredicate_cases (hbare : field.HasBareNames) (raw : String) :
    ((field.valuePredicate scope raw).joins = [] ∧
      ∀ condition ∈ (field.valuePredicate scope raw).condition,
        condition.Every (Expr.IsOfTable (sanitized scope.table))) ∨
    ∃ join, field.searchJoin? scope = some join ∧
      (field.valuePredicate scope raw).joins = [join] ∧
      ∀ condition ∈ (field.valuePredicate scope raw).condition,
        condition.Every (Expr.IsOfTable join.asName) := by
  have hmakes : field.Makes scope raw (field.valuePredicate scope raw) := makes_valuePredicate
  generalize field.valuePredicate scope raw = predicate at hmakes ⊢
  cases hmakes with
  | nothing => exact Or.inl ⟨rfl, by simp [Predicate.none]⟩
  | nullCheck hkey _ =>
      left
      refine ⟨rfl, ?_⟩
      rintro condition ⟨⟩
      have htable := table_of_column? hbare hkey
      exact (Expr.every_isNull _ _).mpr ⟨trivial, (Expr.every_column _).mpr htable⟩
  | own hkey _ _ =>
      exact Or.inl ⟨rfl, ColumnName.every_isOfTable_of_condition? (table_of_column? hbare hkey)⟩
  | @related columns join condition _ hcolumns hjoin hmatching =>
      right
      refine ⟨join, hjoin, rfl, ?_⟩
      rintro other ⟨⟩
      exact every_isOfTable_of_matching (hbare.related columns hcolumns)
        (isClean_of_searchJoin? hjoin).asName hmatching

end Field

end FilterSql

/-
Columns with their tables.

What the filters of a request bring into a query names the table of every column.  So does a
name to show or to sort by, unless it loses its table: it has a dot and something is left of
it, but not on both sides of a dot.  Such a name becomes a bare column, whether or not there is
a field of the name; all others are those of their own table, those of a field, or left out.
-/
import FilterSql.Proofs.Query.Clauses
import FilterSql.Proofs.Sql.ReadName

namespace FilterSql

/-- A column or a star of columns comes with its table. -/
def Expr.IsQualified : Expr → Prop
  | column name => ∃ table, name.table = some table
  | star table => ∃ name, table = some name
  | _ => True

theorem ColumnName.exists_table_of_resolve? {raw table : String} {name : ColumnName}
    (hname : resolve? raw table = some name) : ∃ other, name.table = some other := by
  obtain ⟨read, -, rfl⟩ := Option.map_eq_some_iff.mp hname
  rw [withTable]
  split
  next other hother => exact ⟨other, hother⟩
  next => exact ⟨_, rfl⟩

theorem Join.exists_table_of_column? {join : Join} {raw : String} {name : ColumnName}
    (hname : join.column? raw = some name) : ∃ table, name.table = some table := by
  obtain ⟨target, htarget, rfl⟩ := Option.map_eq_some_iff.mp hname
  split
  · exact ⟨_, rfl⟩
  · exact ColumnName.exists_table_of_resolve? htarget

theorem Field.Gives.exists_table {scope : Scope} {field : Field} {name : ColumnName}
    (hname : field.Gives scope name) : ∃ table, name.table = some table := by
  cases hname with
  | own hname =>
      obtain ⟨column, -, hcolumn⟩ := Option.bind_eq_some_iff.mp hname
      exact ColumnName.exists_table_of_resolve? hcolumn
  | related hname =>
      obtain ⟨_, _, _, _, hcolumn⟩ := hname.column
      exact Join.exists_table_of_column? hcolumn
  | target _ _ hname => exact ColumnName.exists_table_of_resolve? hname

namespace Schema

variable {schema : Schema} {request : Request} {config : Config}

theorem isQualified_of_isAbout {node : Expr} (hnode : node.IsAbout (schema.Gives request config)) :
    node.IsQualified := by
  cases node with
  | column name =>
      obtain ⟨field, -, hgives⟩ := hnode
      exact hgives.exists_table
  | star => exact hnode.elim
  | value | binary | call | callStar | named | castText | inList | between | isNull | datePart =>
      trivial

variable (schema) in
/-- The column of the field of a name, of the base table unless it names another. -/
def fieldColumn? (name : String) : Option ColumnName := do
  let field ← schema.field? name
  let column ← field.dbColumn
  ColumnName.resolve? column schema.tableName

variable {name : String}

theorem exists_table_of_fieldColumn? {column : ColumnName}
    (hcolumn : schema.fieldColumn? name = some column) : ∃ table, column.table = some table := by
  obtain ⟨field, -, hfield⟩ := Option.bind_eq_some_iff.mp hcolumn
  obtain ⟨raw, -, hresolved⟩ := Option.bind_eq_some_iff.mp hfield
  exact ColumnName.exists_table_of_resolve? hresolved

theorem column?_eq_fieldColumn? (hname : ¬ ColumnName.namesTable name = true) :
    schema.column? name = schema.fieldColumn? name := by
  rw [column?, if_neg hname]
  rfl

theorem column?_eq_ofText? (hname : ColumnName.namesTable name = true) :
    schema.column? name = ColumnName.ofText? name := by
  rw [column?, if_pos hname]

/-- A name that loses its table becomes a bare column. -/
theorem exists_bare_of_losesTable (hname : ColumnName.LosesTable name) :
    ∃ column, schema.column? name = some column ∧ column.table = none := by
  rw [column?_eq_ofText? hname.namesTable]
  cases hread : ColumnName.ofText? name with
  | none => exact absurd hname.holdsWord (ColumnName.ofText?_eq_none_iff.mp hread)
  | some column =>
      refine ⟨column, rfl, ?_⟩
      rw [Option.eq_none_iff_forall_ne_some]
      intro table htable
      exact hname.notSpells ((ColumnName.exists_table_iff_spellsTable hread).mp ⟨table, htable⟩)

/-- What a name stands for has a table, unless the name loses it. -/
theorem forall_column?_iff_not_losesTable :
    (∀ column ∈ schema.column? name, ∃ table, column.table = some table) ↔
      ¬ ColumnName.LosesTable name := by
  constructor
  · intro htables hloses
    obtain ⟨column, hcolumn, hnone⟩ := @exists_bare_of_losesTable schema _ hloses
    obtain ⟨table, htable⟩ := htables column hcolumn
    rw [hnone] at htable
    cases htable
  · intro hkeeps column hcolumn
    by_cases hdot : ColumnName.namesTable name = true
    · rw [column?_eq_ofText? hdot] at hcolumn
      rw [ColumnName.exists_table_iff_spellsTable hcolumn]
      by_contra hspells
      exact hkeeps ⟨hdot, (ColumnName.splits_of_ofText? hcolumn).1, hspells⟩
    · rw [column?_eq_fieldColumn? hdot] at hcolumn
      exact exists_table_of_fieldColumn? hcolumn

/-- A name that spells out no table stands for the column of a field, or for none, unless it loses
its table. -/
theorem column?_eq_fieldColumn?_iff_not_losesTable :
    (¬ ColumnName.SpellsTable name →
        schema.column? name = none ∨ schema.column? name = schema.fieldColumn? name) ↔
      ¬ ColumnName.LosesTable name := by
  constructor
  · intro hfield hloses
    apply (@forall_column?_iff_not_losesTable schema name).mp _ hloses
    intro column hcolumn
    rcases hfield hloses.notSpells with hnone | hsame
    · rw [hnone] at hcolumn
      cases hcolumn
    · exact exists_table_of_fieldColumn? (hsame ▸ hcolumn)
  · intro hkeeps hspells
    by_cases hdot : ColumnName.namesTable name = true
    · left
      rw [column?_eq_ofText? hdot, ColumnName.ofText?_eq_none_iff]
      exact fun hword => hkeeps ⟨hdot, hword, hspells⟩
    · exact Or.inr (column?_eq_fieldColumn? hdot)

/-- What a name to show stands for comes with its table, unless the name is none of a star and
loses its table. -/
theorem forall_projected?_iff :
    (∀ expr ∈ schema.projected? name, expr.Every Expr.IsQualified) ↔
      (starTable? name = none → ¬ ColumnName.LosesTable name) := by
  rw [projected?]
  cases hstar : starTable? name with
  | some table => simp [Expr.IsQualified]
  | none =>
      rw [← @forall_column?_iff_not_losesTable schema]
      simp [Expr.IsQualified]

theorem forall_projection_iff {fields : Option (List String)} :
    (∀ expr ∈ schema.projection fields, expr.Every Expr.IsQualified) ↔
      ∀ name ∈ fields.getD [], starTable? name = none → ¬ ColumnName.LosesTable name := by
  have hcolumns : (∀ expr ∈ (fields.getD []).filterMap schema.projected?,
        expr.Every Expr.IsQualified) ↔
      ∀ name ∈ fields.getD [], starTable? name = none → ¬ ColumnName.LosesTable name := by
    rw [List.forall_mem_filterMap]
    exact forall₂_congr fun name _ => forall_projected?_iff
  rw [← hcolumns]
  simp only [projection]
  split
  next hempty =>
    -- Where nothing is left to show, the star of the base table stands for it.
    rw [List.isEmpty_iff.mp hempty]
    simp [Expr.IsQualified]
  next => rfl

theorem forall_orderings_iff {sort : List SortSpec} :
    (∀ ordering ∈ schema.orderings sort, ordering.expr.Every Expr.IsQualified) ↔
      ∀ spec ∈ sort, ¬ ColumnName.LosesTable (Text.trimmed spec.column) := by
  rw [orderings, List.forall_mem_filterMap]
  refine forall₂_congr fun spec _ => ?_
  rw [← @forall_column?_iff_not_losesTable schema]
  simp [Expr.IsQualified]

end Schema

/-- The names in a request that stand for single columns, to show or to sort by. -/
def Request.columnNames (request : Request) : List String :=
  ((request.fields.getD []).filter fun name => (Schema.starTable? name).isNone) ++
    request.sort.map fun spec => Text.trimmed spec.column

namespace Query

variable {schema : Schema} {request : Request} {config : Config} {dialect : Dialect}

/-- Each column that is tested or joined on comes with its table.  All columns of the query do
exactly when no name in the request loses its table; and a name that spells out no table stands
for the column of a field, or for none, exactly when it does not lose one. -/
theorem isQualified_of_ofRequest {query : Query}
    (hquery : ofRequest schema request config dialect = .ok query) :
    (∀ expr ∈ query.select.condition.toList ++ query.select.joins.map JoinClause.on,
      expr.Every Expr.IsQualified) ∧
    ((∀ expr ∈ query.select.exprs, expr.Every Expr.IsQualified) ↔
      ∀ name ∈ request.columnNames, ¬ ColumnName.LosesTable name) ∧
    ∀ name, (¬ ColumnName.SpellsTable name →
        schema.column? name = none ∨ schema.column? name = schema.fieldColumn? name) ↔
      ¬ ColumnName.LosesTable name := by
  have htested : ∀ expr ∈ query.select.condition.toList ++ query.select.joins.map JoinClause.on,
      expr.Every Expr.IsQualified := by
    obtain ⟨hcondition, hjoins⟩ := every_isAbout_of_ofRequest hquery
    rw [List.forall_mem_append, List.forall_mem_map]
    constructor
    · intro condition hmem
      exact (hcondition condition (Option.mem_toList.mp hmem)).imp
        fun _ hnode => Schema.isQualified_of_isAbout hnode
    · intro clause hclause
      exact (hjoins clause hclause).imp fun _ hnode => Schema.isQualified_of_isAbout hnode
  refine ⟨htested, ?_, fun name => Schema.column?_eq_fieldColumn?_iff_not_losesTable⟩
  rw [List.forall_mem_append, List.forall_mem_map] at htested
  rw [forall_mem_exprs_iff hquery fun value => (Expr.every_value value).mpr trivial,
    Schema.forall_projection_iff, Schema.forall_orderings_iff, Request.columnNames,
    List.forall_mem_append, List.forall_mem_map]
  simp only [List.mem_filter, Option.isNone_iff_eq_none, and_imp]
  constructor
  · rintro ⟨hcolumns, -, -, horderings⟩
    exact ⟨hcolumns, horderings⟩
  · rintro ⟨hcolumns, horderings⟩
    refine ⟨hcolumns, htested.2, ?_, horderings⟩
    exact fun condition hcondition => htested.1 condition (Option.mem_toList.mpr hcondition)

end Query

namespace QualifiedColumns

/-- Users with a name. -/
def users : Schema :=
  (Schema.ofTable "users").withField "name" (Field.ofColumn "name" "string").searched

/-- A request for users by name, with names to show that keep their tables or stand for nothing. -/
def askUsers : Request :=
  ((Request.empty.addFilter "name" "bob").addSort ⟨" name ", .ascending⟩).withFields
    ["users.*", "-crm-.users.id.", "name", "ghost", "-.-"]

theorem isQualified_of_users :
    ∃ query, Query.ofRequest users askUsers .standard .postgres = .ok query ∧
      query.select.columns = [.star (some "users"), .column ⟨some "crm.users", "id"⟩,
        .column ⟨some "users", "name"⟩] ∧
      ∀ expr ∈ query.select.exprs, expr.Every Expr.IsQualified := by
  obtain ⟨-, hqualified, -⟩ :=
    @Query.isQualified_of_ofRequest users askUsers .standard .postgres _ rfl
  exact ⟨_, rfl, rfl, hqualified.mpr (by decide)⟩

/-- A request for a column by a name that begins with a dot. -/
def askGhost : Request :=
  (Request.empty.addSort ⟨".ghost", .ascending⟩).withFields [".ghost"]

/-- There is no field of the name, and yet a bare column is shown and sorted by. -/
theorem not_isQualified_of_ghost :
    users.field? ".ghost" = none ∧ users.field? "ghost" = none ∧
    ∃ query, Query.ofRequest users askGhost .standard .postgres = .ok query ∧
      query.select.columns = [.column ⟨none, "ghost"⟩] ∧
      query.select.orderings.map OrderItem.expr = [.column ⟨none, "ghost"⟩] ∧
      ¬ ∀ expr ∈ query.select.exprs, expr.Every Expr.IsQualified := by
  refine ⟨rfl, rfl, _, rfl, rfl, rfl, fun hqualified => ?_⟩
  have hghost : (Expr.column ⟨none, "ghost"⟩).Every Expr.IsQualified :=
    hqualified _ List.mem_cons_self
  obtain ⟨table, htable⟩ := (Expr.every_column _).mp hghost
  cases htable

end QualifiedColumns

end FilterSql

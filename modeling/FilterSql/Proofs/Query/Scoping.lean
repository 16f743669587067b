/-
Which table the columns of a query are of.

Where the fields of a model name no table but the base table and the one they relate to,
the condition of a query reads columns of the base table and of tables that the query
joins, each under the name it is joined under.  A join compares a column under its own
name with one of the base table, unless the column it leads to was named with its table.
-/
import FilterSql.Proofs.Filter.JoinNames
import FilterSql.Proofs.Filter.Mentions
import FilterSql.Proofs.Query.Clauses
import FilterSql.Proofs.Query.CleanStatement

namespace FilterSql

namespace Field

/-- A field whose texts name no table but the base table, or the related one for what is read
from there. -/
structure HasOwnTables (base : String) (field : Field) : Prop where
  dbColumn : ∀ column ∈ field.dbColumn, ColumnName.IsOwn column base
  related : ∀ relation ∈ field.relation, ∀ columns ∈ field.relatedColumns?,
    ∀ related ∈ columns, ColumnName.IsOwn related.column relation.tableName
  target : ∀ relation ∈ field.relation, ColumnName.IsOwn relation.relatedField relation.tableName

instance (base : String) (field : Field) : Decidable (field.HasOwnTables base) :=
  decidable_of_iff
    ((∀ column ∈ field.dbColumn, ColumnName.IsOwn column base) ∧
      (∀ relation ∈ field.relation, ∀ columns ∈ field.relatedColumns?,
        ∀ related ∈ columns, ColumnName.IsOwn related.column relation.tableName) ∧
      ∀ relation ∈ field.relation, ColumnName.IsOwn relation.relatedField relation.tableName)
    ⟨fun h => ⟨h.1, h.2.1, h.2.2⟩, fun h => ⟨h.dbColumn, h.related, h.target⟩⟩

variable {scope : Scope} {field : Field}

theorem HasOwnTables.table_of_column? (scope : Scope) (hfield : field.HasOwnTables scope.table)
    (hscope : IsNameText scope.table) {key : ColumnName} (hkey : field.column? scope = some key) :
    key.table = some scope.table := by
  obtain ⟨column, hcolumn, hresolved⟩ := Option.bind_eq_some_iff.mp hkey
  rcases ColumnName.table_of_isOwn (hfield.dbColumn column hcolumn) hscope hresolved with h | h
  · exact h.2
  · exact h.2

theorem HasOwnTables.table_of_readsRelated {base : String} (hfield : field.HasOwnTables base)
    {join : Join} {name : ColumnName} (hname : field.ReadsRelated scope join name) :
    name.table = some join.asName ∧ name.table ≠ some join.table := by
  obtain ⟨relation, _, key, hrelation, -, -, hjoin⟩ := searchJoin?_eq_some.mp hname.searched
  obtain ⟨columns, hcolumns, related, hrelated, hcolumn⟩ := hname.column
  have hown := hfield.related relation hrelation columns hcolumns related hrelated
  rw [← Relation.table_of_join? hjoin] at hown
  have htable := Join.table_of_isOwn (isClean_of_searchJoin? hname.searched).asName hown hcolumn
  refine ⟨htable, ?_⟩
  rw [htable, ne_eq, Option.some.injEq]
  exact Relation.asName_ne_table hjoin

end Field

/-- The clause compares a column of the table that it joins, under the name that it goes by, with
a column of the base table. -/
def JoinClause.ComparesOwn (clause : JoinClause) (base : String) : Prop :=
  ∃ target key : ColumnName, clause.on = .binary .eq (.column target) (.column key) ∧
    target.table = clause.source.asName ∧ key.table = some base

/-- A join compares a column of its own exactly when the column that it leads to is named
without a table. -/
theorem Field.HasOwnTables.comparesOwn_iff {field : Field} (scope : Scope)
    (hfield : field.HasOwnTables scope.table) (hscope : IsNameText scope.table) {join : Join}
    (hjoin : field.searchJoin? scope = some join) {clause : JoinClause}
    (hclause : clause.Makes join) :
    clause.ComparesOwn scope.table ↔
      ∀ relation ∈ field.relation, ColumnName.IsBare relation.relatedField := by
  obtain ⟨relation, _, key, hrelation, -, hkey, hmade⟩ := Field.searchJoin?_eq_some.mp hjoin
  have hname := (Field.isClean_of_searchJoin? hjoin).asName
  have hother := Relation.asName_ne_table hmade
  rw [Relation.asName_of_join? hmade] at hname
  obtain ⟨-, target, htarget, rfl⟩ := Relation.join?_eq_some.mp hmade
  have hown : ColumnName.IsOwn relation.relatedField relation.tableName :=
    hfield.target relation hrelation
  have hkeyTable := hfield.table_of_column? scope hscope hkey
  have hcompares : clause.ComparesOwn scope.table ↔
      target.table = some (Relation.joinName relation.tableChars key) := by
    obtain ⟨hsource, hon⟩ := hclause
    rw [JoinClause.ComparesOwn, hsource, hon]
    constructor
    · rintro ⟨found, foundKey, hsame, htable, -⟩
      simp only [Expr.binary.injEq, Expr.column.injEq, true_and] at hsame
      rw [hsame.1]
      exact htable
    · intro htable
      exact ⟨target, key, rfl, htable, hkeyTable⟩
  rw [hcompares, hrelation]
  simp only [Option.mem_some_iff, forall_eq']
  rcases ColumnName.table_of_isOwn hown hname htarget with ⟨hbare, htable⟩ | ⟨hbare, htable⟩
  · exact iff_of_true htable hbare
  · refine iff_of_false ?_ hbare
    rw [htable, Option.some.injEq]
    exact Ne.symm hother

namespace Query

variable {schema : Schema} {request : Request} {config : Config} {dialect : Dialect}
  {query : Query}

theorem exists_clause_of_mem_joins (hquery : ofRequest schema request config dialect = .ok query)
    {part : Predicate} (hpart : part ∈ schema.requestParts config request) {join : Join}
    (hjoin : join ∈ part.joins) :
    ∃ clause ∈ query.select.joins, clause.source.asName = some join.asName := by
  obtain ⟨predicate, hpredicate, hjoins, -⟩ := exists_requestPredicate hquery
  obtain ⟨found, hfound⟩ := Join.exists_named?_of_mem (List.mem_flatMap_of_mem hpart hjoin)
  rw [← (Schema.assembled_requestPredicate hpredicate).named?_joins] at hfound
  obtain ⟨made, hmade, hname, -⟩ := Join.exists_mem_of_named? hfound
  rw [hjoins]
  exact ⟨made.toClause, List.mem_map_of_mem hmade, congrArg some hname⟩

/-- Where the fields that may be filtered on name their own tables only, each column of the
condition is a field's column of the base table, or a related column under the name of a join
that stands in the query, never under the related table's own name.  Each join comes of a field,
and compares a column of its own with one of the base table exactly when the field's related
column is named without a table. -/
theorem scoping_of_ofRequest
    (hfields : ∀ field ∈ schema.allowedFields request, field.HasOwnTables schema.tableName)
    (hquery : ofRequest schema request config dialect = .ok query) :
    (∀ condition ∈ query.select.condition, ∀ name, condition.Mentions name →
      ∃ field ∈ schema.allowedFields request,
        (field.column? (config.scope schema.tableName) = some name ∧
          name.table = some schema.tableName) ∨
        ∃ join, field.ReadsRelated (config.scope schema.tableName) join name ∧
          name.table = some join.asName ∧ name.table ≠ some join.table ∧
          ∃ clause ∈ query.select.joins, clause.source.asName = name.table) ∧
    (∀ clause ∈ query.select.joins, ∃ field ∈ schema.allowedFields request, ∃ join,
      field.searchJoin? (config.scope schema.tableName) = some join ∧ clause.Makes join ∧
        (clause.ComparesOwn schema.tableName ↔
          ∀ relation ∈ field.relation, ColumnName.IsBare relation.relatedField)) := by
  have hbase := schema.isNameText_tableName
  constructor
  · intro condition hcondition name hname
    obtain ⟨predicate, hpredicate, -, hsame⟩ := exists_requestPredicate hquery
    have hmentions : predicate.Mentions name := ⟨condition, hsame ▸ hcondition, hname⟩
    obtain ⟨part, hpart, hmentions⟩ :=
      (Schema.assembled_requestPredicate hpredicate).mentions_iff.mp hmentions
    obtain ⟨field, hfield, hbrings⟩ := Schema.exists_brings_of_mem_requestParts hpart
    refine ⟨field, hfield, ?_⟩
    rcases hbrings with ⟨raw, rfl⟩ | ⟨join, -, rfl⟩
    · rcases Field.mentions_valuePredicate hmentions with hkey | ⟨join, hjoin, hrelated⟩
      · exact Or.inl ⟨hkey,
          (hfields field hfield).table_of_column? (config.scope schema.tableName) hbase hkey⟩
      · obtain ⟨htable, hother⟩ := (hfields field hfield).table_of_readsRelated hrelated
        refine Or.inr ⟨join, hrelated, htable, hother, ?_⟩
        rw [htable]
        exact exists_clause_of_mem_joins hquery hpart hjoin
    · -- A join that a search puts first has no condition.
      obtain ⟨_, hnone, -⟩ := hmentions
      cases hnone
  · intro clause hclause
    obtain ⟨field, hfield, join, hjoin, hmakes⟩ := exists_makes_of_mem_joins hquery hclause
    exact ⟨field, hfield, join, hjoin, hmakes,
      (hfields field hfield).comparesOwn_iff (config.scope schema.tableName) hbase hjoin hmakes⟩

end Query

namespace Scoping

/-- Users with a name and a company, every column with its table; the company is found by the
column that is named. -/
def users (target : String) : Schema :=
  ((Schema.ofTable "users").withField "name" (Field.ofColumn "users.name" "string").searched)
    |>.withField "company" ((Field.foreignKey "users.company_id" "int" "companies"
      target).searchedThrough "companies.name:string|code:int")

/-- A request for users of a company who are found by a word. -/
def askUsers : Request :=
  (Request.empty.addFilter "company" "acme").addFilter "search" "7"

theorem comparesOwn_of_users :
    (∀ field ∈ (users "id").allowedFields askUsers, field.HasOwnTables (users "id").tableName) ∧
    ∃ query, Query.ofRequest (users "id") askUsers .standard .postgres = .ok query ∧
      query.select.joins.length = 1 ∧
      ∀ clause ∈ query.select.joins, clause.ComparesOwn (users "id").tableName := by
  have hfields : ∀ field ∈ (users "id").allowedFields askUsers,
      field.HasOwnTables (users "id").tableName := by decide
  refine ⟨hfields, _, rfl, rfl, ?_⟩
  intro clause hclause
  obtain ⟨field, hfield, join, -, -, hcompares⟩ :=
    (@Query.scoping_of_ofRequest (users "id") askUsers .standard .postgres _ hfields rfl).2
      clause hclause
  have hbare : ∀ field ∈ (users "id").allowedFields askUsers, ∀ relation ∈ field.relation,
      ColumnName.IsBare relation.relatedField := by decide
  exact hcompares.mpr (hbare field hfield)

/-- The column that a relation points to, named with its table, is left as it is: the condition
of the join is about a table that the query does not have. -/
theorem not_comparesOwn_of_users :
    (∀ field ∈ (users "companies.id").allowedFields askUsers,
      field.HasOwnTables (users "companies.id").tableName) ∧
    ∃ query clause,
      Query.ofRequest (users "companies.id") askUsers .standard .postgres = .ok query ∧
      query.select.source.map Source.table = some ⟨none, "users"⟩ ∧
      query.select.joins = [clause] ∧ clause.source.asName = some "companies_company_id" ∧
      clause.on = .binary .eq (.column ⟨some "companies", "id"⟩)
        (.column ⟨some "users", "company_id"⟩) ∧
      ¬ clause.ComparesOwn (users "companies.id").tableName := by
  refine ⟨by decide, _, _, rfl, rfl, rfl, rfl, rfl, ?_⟩
  rintro ⟨target, key, hon, htable, -⟩
  injection hon with _ htarget
  injection htarget with htarget
  rw [← htarget] at htable
  revert htable
  decide

end Scoping

end FilterSql

/-
The statement that counts the rows of a query.

A query and the statement that counts its rows name the table, the joins and the condition
in the same words, with the same placeholders for the same values: no column that a query
shows binds a value.  What the query has beyond that is its order and its page.
-/
import FilterSql.Proofs.Query.Clauses
import FilterSql.Proofs.Sql.Placeholders

namespace FilterSql

variable {dialect : Dialect}

/-- Where no value is bound, the text is the same wherever in a statement it stands. -/
theorem Template.sqlFrom_eq_sql {template : Template} (hparams : template.params = [])
    (index : Nat) : template.sqlFrom dialect index = template.sql dialect := by
  rw [sql, sqlFrom_eq_interleave, sqlFrom_eq_interleave, hparams]
  rfl

/-- A text that binds no value does not count for what follows it. -/
theorem Template.sql_append {first : Template} (hparams : first.params = []) (second : Template) :
    (first ++ second).sql dialect = first.sql dialect ++ second.sql dialect := by
  rw [sql, sqlFrom_append, hparams]
  rfl

/-- A join in a statement, its kind and its table before its condition. -/
def JoinClause.text (dialect : Dialect) (join : JoinClause) : String :=
  join.kind.text ++ join.source.text dialect ++ " ON " ++ (join.on.template dialect).sql dialect

namespace Select

theorem sql_template (select : Select)
    (hcolumns : (select.columnsTemplate dialect).params = []) :
    (select.template dialect).sql dialect =
      "SELECT " ++ (select.columnsTemplate dialect).sql dialect ++
        (select.rowsTemplate dialect).sql dialect ++
        (select.pageTemplate dialect).sqlFrom dialect
          (select.rowsTemplate dialect).params.length := by
  rw [template, Template.sql, List.append_assoc, List.cons_append, Template.sqlFrom,
    Template.sqlFrom_append, Template.sqlFrom_append, hcolumns]
  simp [Template.sql, String.append_assoc]

/-- Joins whose conditions have no values stand one after another. -/
theorem sql_joinTemplates {joins : List JoinClause}
    (hjoins : ∀ join ∈ joins, join.on.values = []) :
    Template.params (joins.flatMap (JoinClause.template dialect)) = [] ∧
      Template.sql dialect (joins.flatMap (JoinClause.template dialect)) =
        String.join (joins.map (JoinClause.text dialect)) := by
  induction joins with
  | nil => exact ⟨rfl, rfl⟩
  | cons join joins ih =>
      rw [List.forall_mem_cons] at hjoins
      obtain ⟨hparams, htext⟩ := ih hjoins.2
      have hjoin : (join.template dialect).params = [] := by
        rw [JoinClause.template, Template.params, Expr.params_template, hjoins.1]
      constructor
      · rw [List.flatMap_cons, Template.params_append, hjoin, hparams, List.append_nil]
      · rw [List.flatMap_cons, Template.sql_append hjoin, htext, List.map_cons, String.join_cons]
        rfl

/-- The rows of a statement are those of its table and its joins that pass its condition.  Where
the joins bind no values, the first value is one of the condition. -/
theorem sql_rowsTemplate (select : Select)
    (hjoins : ∀ join ∈ select.joins, join.on.values = []) :
    (select.rowsTemplate dialect).sql dialect =
      select.source.elim "" (fun source => " FROM " ++ source.text dialect) ++
        String.join (select.joins.map (JoinClause.text dialect)) ++
        select.condition.elim "" fun condition =>
          " WHERE " ++ (condition.template dialect).sql dialect := by
  obtain ⟨hparams, htext⟩ := @sql_joinTemplates dialect _ hjoins
  have hsource : (sourceTemplate dialect select.source).params = [] ∧
      (sourceTemplate dialect select.source).sql dialect =
        select.source.elim "" fun source => " FROM " ++ source.text dialect := by
    cases select.source <;> simp [sourceTemplate, Template.params, Template.sql, Template.sqlFrom]
  have hcondition : (clauseTemplate dialect " WHERE " select.condition).sql dialect =
      select.condition.elim "" fun condition =>
        " WHERE " ++ (condition.template dialect).sql dialect := by
    cases select.condition <;> rfl
  rw [rowsTemplate, List.append_assoc, Template.sql_append hsource.1, Template.sql_append hparams,
    hsource.2, htext, hcondition, String.append_assoc]

theorem params_parts (select : Select) :
    (select.template dialect).params =
      (select.columnsTemplate dialect).params ++ (select.rowsTemplate dialect).params ++
        (select.pageTemplate dialect).params := by
  rw [template, Template.params_append, List.cons_append, Template.params, Template.params_append]

/-- A count names the rows as the statement does, and nothing after them. -/
theorem template_toCount (select : Select) (asName : String) :
    (select.toCount asName).template dialect =
      .text "SELECT " :: .text "COUNT(*)" :: .text (" AS " ++ dialect.quoteName asName) ::
        select.rowsTemplate dialect := by
  have hpage : (select.toCount asName).pageTemplate dialect = [] := rfl
  rw [template, hpage, List.append_nil]
  rfl

theorem sql_toCount (select : Select) (asName : String) :
    ((select.toCount asName).template dialect).sql dialect =
      "SELECT COUNT(*) AS " ++ dialect.quoteName asName ++
        (select.rowsTemplate dialect).sql dialect := by
  simp [template_toCount, Template.sql, Template.sqlFrom, ← String.append_assoc]

theorem params_toCount (select : Select) (asName : String) :
    ((select.toCount asName).template dialect).params = (select.rowsTemplate dialect).params := by
  simp [template_toCount, Template.params]

end Select

namespace Schema

variable (schema : Schema)

theorem Lists.values_eq_nil {expr : Expr} (hexpr : schema.Lists expr) : expr.values = [] := by
  cases hexpr <;> rfl

/-- The columns that a query shows are names; no value stands among them. -/
theorem values_projection (fields : Option (List String)) :
    (schema.projection fields).flatMap Expr.values = [] := by
  rw [List.flatMap_eq_nil_iff]
  exact fun expr hexpr => (lists_of_mem_projection expr hexpr).values_eq_nil

/-- What a query is ordered by are names; no value stands among them. -/
theorem values_orderings (sort : List SortSpec) :
    ((schema.orderings sort).map OrderItem.expr).flatMap Expr.values = [] := by
  rw [List.flatMap_map, List.flatMap_eq_nil_iff]
  exact fun ordering hordering => (lists_of_mem_orderings ordering hordering).values_eq_nil

end Schema

namespace Pagination

/-- The values of the limits of a page. -/
def values (config : Config) (page : Pagination) : List Value :=
  [.ofUInt64 (page.resolvedLimit config), .ofUInt64 (page.resolvedOffset config)]

/-- The limits of a page in a statement. -/
def template (config : Config) (page : Pagination) : Template :=
  [.text " LIMIT ", .value (.ofUInt64 (page.resolvedLimit config)),
    .text " OFFSET ", .value (.ofUInt64 (page.resolvedOffset config))]

/-- The text of the limits of a page after so many values. -/
def text (dialect : Dialect) (count : Nat) : String :=
  " LIMIT " ++ dialect.placeholder count ++ " OFFSET " ++ dialect.placeholder (count + 1)

@[simp] theorem params_template (config : Config) (page : Pagination) :
    (page.template config).params = page.values config := rfl

@[simp] theorem sqlFrom_template (config : Config) (page : Pagination) (count : Nat) :
    (page.template config).sqlFrom dialect count = text dialect count := by
  simp [template, text, Template.sqlFrom, String.append_assoc]

end Pagination

variable {schema : Schema} {request : Request} {config : Config} {predicate : Predicate}

/-- After its rows a statement has its order and, where the request asks for one, its page. -/
theorem Schema.pageTemplate_statement :
    (schema.statement request config predicate).pageTemplate dialect =
      orderingsTemplate dialect (schema.orderings request.sort) ++
        request.pagination.elim [] (Pagination.template config) := by
  rw [Select.pageTemplate, List.append_assoc]
  cases hpage : request.pagination <;> simp only [statement, hpage] <;> rfl

namespace Query

/-- A related table is joined on two columns, so no join binds a value. -/
theorem values_on_of_mem_joins {query : Query}
    (hquery : ofRequest schema request config dialect = .ok query) :
    ∀ join ∈ query.select.joins, join.on.values = [] := by
  intro join hjoin
  obtain ⟨field, -, made, hmade, -, hon⟩ := exists_makes_of_mem_joins hquery hjoin
  obtain ⟨relation, columns, key, -, -, -, hrelation⟩ := Field.searchJoin?_eq_some.mp hmade
  obtain ⟨-, target, -, rfl⟩ := Relation.join?_eq_some.mp hrelation
  rw [hon]
  rfl

/-- A query is the columns it shows, the rows it is about, and its order and page; the statement
that counts these rows has the same text for them, with the same placeholders: that of its table,
its joins and its condition.  Both bind the values of the rows, and the query those of its page
after them. -/
theorem countSql_of_ofRequest {query : Query}
    (hquery : ofRequest schema request config dialect = .ok query) :
    query.sql =
        "SELECT " ++ (query.select.columnsTemplate dialect).sql dialect ++
          (query.select.rowsTemplate dialect).sql dialect ++
          ((orderingsTemplate dialect query.select.orderings).sql dialect ++
            request.pagination.elim "" fun _ =>
              Pagination.text dialect query.countParams.length) ∧
      query.countSql =
        "SELECT COUNT(*) AS " ++ dialect.quoteName "aggregate" ++
          (query.select.rowsTemplate dialect).sql dialect ∧
      query.params =
        query.countParams ++ request.pagination.elim [] (Pagination.values config) ∧
      (query.select.rowsTemplate dialect).sql dialect =
        " FROM " ++ dialect.quoteName schema.tableName ++
          String.join (query.select.joins.map (JoinClause.text dialect)) ++
          query.select.condition.elim "" fun condition =>
            " WHERE " ++ (condition.template dialect).sql dialect := by
  have hjoins := values_on_of_mem_joins hquery
  obtain ⟨predicate, -, rfl⟩ := exists_statement hquery
  have hcolumns : ((schema.statement request config predicate).columnsTemplate dialect).params =
      [] := by
    rw [Select.params_columnsTemplate]
    exact schema.values_projection request.fields
  have horderings : (orderingsTemplate dialect (schema.orderings request.sort)).params = [] := by
    rw [Select.params_orderingsTemplate, schema.values_orderings]
  have hcount : countParams ⟨schema.statement request config predicate, dialect⟩ =
      ((schema.statement request config predicate).rowsTemplate dialect).params :=
    Select.params_toCount _ _
  refine ⟨?_, Select.sql_toCount _ _, ?_, ?_⟩
  · rw [hcount, sql, Select.sql_template _ hcolumns, Schema.pageTemplate_statement,
      Template.sqlFrom_append, horderings, Template.sqlFrom_eq_sql horderings]
    cases request.pagination <;> simp [Template.sqlFrom, Schema.statement]
  · rw [hcount, params, Select.params_parts, hcolumns, Schema.pageTemplate_statement,
      Template.params_append, horderings]
    cases request.pagination <;> simp [Template.params]
  · rw [Select.sql_rowsTemplate _ hjoins]
    simp [Schema.statement, Source.text, TableName.text, qualifierText]

end Query

namespace RowCount

/-- Users with a name, and the company they belong to. -/
def users : Schema :=
  ((Schema.ofTable "users").withField "name" (Field.ofColumn "name" "string").searched)
    |>.withField "company" ((Field.foreignKey "company_id" "int" "companies"
      "id").searchedThrough "name:string")

/-- The third page of users of some companies, the last name first. -/
def thirdPage : Request :=
  ((((Request.empty.addFilter "name" "an").addFilter "company" "acme").addFilter "company"
    "apex").addSort ⟨"name", .descending⟩).withPage 3 10

theorem countSql_of_users :
    ∃ query, Query.ofRequest users thirdPage .standard .postgres = .ok query ∧
      query.params.length = 5 ∧ query.countParams.length = 3 ∧
      query.params = query.countParams ++ [.int 10, .int 20] := by
  refine ⟨_, rfl, ?_, ?_, ?_⟩
  · decide
  · decide
  · exact (@Query.countSql_of_ofRequest .postgres users thirdPage .standard _ rfl).2.2.1

end RowCount

end FilterSql

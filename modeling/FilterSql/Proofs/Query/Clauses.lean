/-
The clauses of a query.

Each clause comes of its own part of the request.  The joins and the condition are those of
the predicate that the filters ask for together, about columns of fields; every join is one
that a field is searched through, and each name is joined once.  What is shown and sorted by
are the columns that names stand for.
-/
import FilterSql.Proofs.Filter.NamedColumns
import FilterSql.Proofs.Sql.AddedClauses
import FilterSql.Proofs.Sql.Nodes

namespace FilterSql

/-- The clause joins the table of a join on its condition and under its name. -/
def JoinClause.Makes (clause : JoinClause) (join : Join) : Prop :=
  clause.source = join.toClause.source ∧ clause.on = join.on

theorem Join.makes_toClause_iff {made join : Join} :
    made.toClause.Makes join ↔ made.outer = join.outer := by
  cases made
  cases join
  simp [JoinClause.Makes, toClause, outer, and_assoc]

/-- Columns of a table with a predicate get its joins and its condition, and nothing else. -/
theorem Predicate.apply_ofColumns (predicate : Predicate) (columns : List Expr) (source : Source) :
    predicate.apply (.ofColumns columns source) =
      { Select.ofColumns columns source with
        joins := predicate.joins.map Join.toClause
        condition := predicate.condition } := by
  rw [apply_eq_addAll, Select.addAll_eq_extended, Select.extended_ofColumns,
    arguments_join_additions, arguments_condition_additions]
  cases predicate.condition <;>
    simp [arguments_additions_of_ne, Select.ofColumns, Expr.conjunction?]

theorem Select.foldl_addOrdering (orderings : List OrderItem) (select : Select) :
    orderings.foldl addOrdering select =
      { select with orderings := select.orderings ++ orderings } := by
  induction orderings generalizing select with
  | nil => simp
  | cons ordering orderings ih =>
      rw [List.foldl_cons, ih, addOrdering, List.append_assoc]
      rfl

/-- The statement of a request whose filters ask for a predicate, clause by clause. -/
def Schema.statement (schema : Schema) (request : Request) (config : Config)
    (predicate : Predicate) : Select where
  columns := schema.projection request.fields
  source := some ⟨⟨none, schema.tableName⟩, none⟩
  joins := predicate.joins.map Join.toClause
  condition := predicate.condition
  orderings := schema.orderings request.sort
  limit := request.pagination.map fun page => .value (.ofUInt64 (page.resolvedLimit config))
  offset := request.pagination.map fun page => .value (.ofUInt64 (page.resolvedOffset config))

variable {schema : Schema} {request : Request} {config : Config} {dialect : Dialect}

namespace Schema

/-- An expression that a name to show or to sort by stands for, or that all columns do. -/
inductive Lists (schema : Schema) : Expr → Prop
  | base : Lists schema (.star (some schema.tableName))
  | star {name table : String} (hname : starTable? name = some table) (htable : table ≠ "") :
      Lists schema (.star (some table))
  | column {name : String} {column : ColumnName} (hcolumn : schema.column? name = some column) :
      Lists schema (.column column)

theorem lists_of_projected? {name : String} {expr : Expr}
    (hexpr : schema.projected? name = some expr) : schema.Lists expr := by
  rw [projected?] at hexpr
  split at hexpr
  next table hname =>
    split at hexpr
    next => cases hexpr
    next hempty =>
      cases hexpr
      exact .star hname (by simpa using hempty)
  next =>
    obtain ⟨column, hcolumn, rfl⟩ := Option.map_eq_some_iff.mp hexpr
    exact .column hcolumn

theorem lists_of_mem_projection {fields : Option (List String)} :
    ∀ expr ∈ schema.projection fields, schema.Lists expr := by
  intro expr hexpr
  simp only [projection] at hexpr
  split at hexpr
  · rw [List.mem_singleton.mp hexpr]
    exact .base
  · obtain ⟨name, -, hname⟩ := List.mem_filterMap.mp hexpr
    exact lists_of_projected? hname

theorem lists_of_mem_orderings {sort : List SortSpec} :
    ∀ ordering ∈ schema.orderings sort, schema.Lists ordering.expr := by
  intro ordering hordering
  obtain ⟨spec, -, hspec⟩ := List.mem_filterMap.mp hordering
  obtain ⟨column, hcolumn, rfl⟩ := Option.map_eq_some_iff.mp hspec
  exact .column hcolumn

end Schema

/-- A request fails only where its filters do; otherwise each clause comes of its own part of the
request. -/
theorem Query.ofRequest_eq_map :
    ofRequest schema request config dialect =
      (schema.requestPredicate request config).map fun predicate =>
        ⟨schema.statement request config predicate, dialect⟩ := by
  rw [ofRequest]
  cases schema.requestPredicate request config with
  | error reason => rfl
  | ok predicate =>
      simp only [bind, Except.bind, Predicate.apply_ofColumns, Select.foldl_addOrdering]
      -- A page adds its two limits, and no page adds none.
      cases hpage : request.pagination <;>
        simp [Schema.statement, hpage, Select.ofColumns, Select.paged, Select.withLimit,
          Select.withOffset, Except.map, pure, Except.pure]

theorem Query.exists_statement {query : Query}
    (hquery : ofRequest schema request config dialect = .ok query) :
    ∃ predicate, schema.requestPredicate request config = .ok predicate ∧
      query = ⟨schema.statement request config predicate, dialect⟩ := by
  rw [ofRequest_eq_map] at hquery
  cases hpredicate : schema.requestPredicate request config with
  | error reason => simp [hpredicate, Except.map] at hquery
  | ok predicate =>
      simp only [hpredicate, Except.map, Except.ok.injEq] at hquery
      exact ⟨predicate, rfl, hquery.symm⟩

/-- The expressions of a query are those that are shown, tested, joined on and sorted by, and the
values of its limits. -/
theorem Query.forall_mem_exprs_iff {query : Query}
    (hquery : ofRequest schema request config dialect = .ok query) {P : Expr → Prop}
    (hvalue : ∀ value, P (.value value)) :
    (∀ expr ∈ query.select.exprs, P expr) ↔
      (∀ expr ∈ schema.projection request.fields, P expr) ∧
      (∀ clause ∈ query.select.joins, P clause.on) ∧
      (∀ condition ∈ query.select.condition, P condition) ∧
      ∀ ordering ∈ schema.orderings request.sort, P ordering.expr := by
  obtain ⟨predicate, -, rfl⟩ := exists_statement hquery
  simp only [Select.exprs, List.forall_mem_append, List.forall_mem_map, Option.mem_toList, and_assoc]
  constructor
  · rintro ⟨hcolumns, hjoins, hcondition, horderings, -⟩
    exact ⟨hcolumns, hjoins, hcondition, horderings⟩
  · rintro ⟨hcolumns, hjoins, hcondition, horderings⟩
    refine ⟨hcolumns, hjoins, hcondition, horderings, ?_⟩
    simp only [Schema.statement]
    cases request.pagination <;> simp [hvalue]

/-- What the filters of a request ask for is what its query is filtered by. -/
theorem Query.exists_requestPredicate {query : Query}
    (hquery : ofRequest schema request config dialect = .ok query) :
    ∃ predicate, schema.requestPredicate request config = .ok predicate ∧
      query.select.joins = predicate.joins.map Join.toClause ∧
      query.select.condition = predicate.condition := by
  obtain ⟨predicate, hpredicate, rfl⟩ := exists_statement hquery
  exact ⟨predicate, hpredicate, rfl, rfl⟩

/-- The condition of a query, and those that it joins on, are about columns of the fields that
may be filtered on. -/
theorem Query.every_isAbout_of_ofRequest {query : Query}
    (hquery : ofRequest schema request config dialect = .ok query) :
    (∀ condition ∈ query.select.condition,
      condition.Every (Expr.IsAbout (schema.Gives request config))) ∧
    ∀ clause ∈ query.select.joins,
      clause.on.Every (Expr.IsAbout (schema.Gives request config)) := by
  obtain ⟨predicate, hpredicate, hjoins, hcondition⟩ := exists_requestPredicate hquery
  have habout := Schema.satisfies_isAbout hpredicate
  rw [hjoins, hcondition]
  refine ⟨habout.condition, ?_⟩
  intro clause hclause
  obtain ⟨join, hjoin, rfl⟩ := List.mem_map.mp hclause
  exact habout.joins join hjoin

theorem Field.Brings.nodup_joins {scope : Scope} {field : Field} {part : Predicate}
    (h : field.Brings scope part) : (part.joins.map Join.asName).Nodup := by
  rcases h with ⟨raw, rfl⟩ | ⟨join, -, rfl⟩
  · exact nodup_joins_valuePredicate scope field raw
  · simp [Predicate.ofJoin]

theorem Field.Brings.searchJoin?_eq_some {scope : Scope} {field : Field} {part : Predicate}
    (h : field.Brings scope part) {join : Join} (hjoin : join ∈ part.joins) :
    field.searchJoin? scope = some join := by
  rcases h with ⟨raw, rfl⟩ | ⟨own, hown, rfl⟩
  · rcases (@makes_valuePredicate scope field raw).joins with hjoins | ⟨-, own, hown, hjoins⟩
    · simp [hjoins] at hjoin
    · rw [hjoins, List.mem_singleton] at hjoin
      rw [hjoin, hown]
  · rw [List.mem_singleton.mp hjoin, hown]

namespace Schema

/-- The joins that the filters of a request bring, in their order. -/
def broughtJoins (schema : Schema) (config : Config) (request : Request) : List Join :=
  (schema.requestParts config request).flatMap Predicate.joins

theorem searchJoin?_of_mem_broughtJoins {join : Join}
    (hjoin : join ∈ schema.broughtJoins config request) :
    ∃ field ∈ schema.allowedFields request,
      field.searchJoin? (config.scope schema.tableName) = some join := by
  obtain ⟨part, hpart, hjoin⟩ := List.mem_flatMap.mp hjoin
  obtain ⟨field, hfield, hbrings⟩ := exists_brings_of_mem_requestParts hpart
  exact ⟨field, hfield, hbrings.searchJoin?_eq_some hjoin⟩

theorem nodup_joins_requestPredicate {predicate : Predicate}
    (hpredicate : schema.requestPredicate request config = .ok predicate) :
    (predicate.joins.map Join.asName).Nodup := by
  apply (assembled_requestPredicate hpredicate).nodup_joins
  intro part hpart
  obtain ⟨field, -, hbrings⟩ := exists_brings_of_mem_requestParts hpart
  exact hbrings.nodup_joins

end Schema

namespace Query

/-- Every join of a query is one that a field is searched through. -/
theorem exists_makes_of_mem_joins {query : Query}
    (hquery : ofRequest schema request config dialect = .ok query)
    {clause : JoinClause} (hclause : clause ∈ query.select.joins) :
    ∃ field ∈ schema.allowedFields request, ∃ join,
      field.searchJoin? (config.scope schema.tableName) = some join ∧ clause.Makes join := by
  obtain ⟨predicate, hpredicate, hjoins, -⟩ := exists_requestPredicate hquery
  rw [hjoins] at hclause
  obtain ⟨made, hmade, rfl⟩ := List.mem_map.mp hclause
  have hnamed := Join.named?_of_nodup (Schema.nodup_joins_requestPredicate hpredicate) hmade
  rw [(Schema.assembled_requestPredicate hpredicate).named?_joins] at hnamed
  obtain ⟨join, hjoin, -, houter⟩ := Join.exists_mem_of_named? hnamed
  obtain ⟨field, hfield, hsearched⟩ := Schema.searchJoin?_of_mem_broughtJoins hjoin
  exact ⟨field, hfield, join, hsearched, Join.makes_toClause_iff.mpr houter.symm⟩

end Query

end FilterSql

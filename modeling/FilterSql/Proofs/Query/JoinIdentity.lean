/-
Which joins stand in a query.

A name is joined once, as the first part of the filters that joins a table under it says.
A join that a condition needs is there exactly when no other join has taken its name
before.  Names are made of tables and columns, and joins that differ may share one; then
the conditions of the later one are about the table of the first.
-/
import FilterSql.Proofs.Filter.JoinNames
import FilterSql.Proofs.Query.Clauses
import FilterSql.Proofs.Sql.Nodes

namespace FilterSql

open Predicate (Assembled)

theorem Join.outer_eq_outer_iff {one two : Join} :
    one.outer = two.outer ↔ one.asName = two.asName ∧ one.table = two.table ∧ one.on = two.on := by
  cases one
  cases two
  simp only [outer, mk.injEq, true_and]
  tauto

namespace Query

variable {schema : Schema} {request : Request} {config : Config} {dialect : Dialect}
  {query : Query}

/-- A join stands in a query exactly when it is the first of its name that the filters bring. -/
theorem exists_makes_iff (hquery : ofRequest schema request config dialect = .ok query)
    (join : Join) :
    (∃ clause ∈ query.select.joins, clause.Makes join) ↔
      Join.named? join.asName (schema.broughtJoins config request) = some join.outer := by
  obtain ⟨predicate, hpredicate, hjoins, -⟩ := exists_requestPredicate hquery
  have hfirst : Join.named? join.asName predicate.joins =
      Join.named? join.asName (schema.broughtJoins config request) :=
    (Schema.assembled_requestPredicate hpredicate).named?_joins join.asName
  rw [← hfirst, hjoins]
  constructor
  · rintro ⟨clause, hclause, hmakes⟩
    obtain ⟨made, hmade, rfl⟩ := List.mem_map.mp hclause
    have houter := Join.makes_toClause_iff.mp hmakes
    have hname : made.asName = join.asName := (Join.outer_eq_outer_iff.mp houter).1
    rw [← hname, ← houter]
    exact Join.named?_of_nodup (Schema.nodup_joins_requestPredicate hpredicate) hmade
  · intro hnamed
    obtain ⟨made, hmade, -, houter⟩ := Join.exists_mem_of_named? hnamed
    exact ⟨made.toClause, List.mem_map_of_mem hmade, Join.makes_toClause_iff.mpr houter⟩

theorem forall_exists_makes_iff (hquery : ofRequest schema request config dialect = .ok query) :
    (∀ join ∈ schema.broughtJoins config request,
        ∃ clause ∈ query.select.joins, clause.Makes join) ↔
      ∀ one ∈ schema.broughtJoins config request, ∀ two ∈ schema.broughtJoins config request,
        one.AgreeByName two := by
  constructor
  · intro hstand one hone two htwo hname
    have hfirst := (exists_makes_iff hquery one).mp (hstand one hone)
    have hsecond := (exists_makes_iff hquery two).mp (hstand two htwo)
    rw [hname, hsecond, Option.some.injEq] at hfirst
    exact (Join.outer_eq_outer_iff.mp hfirst.symm).2
  · intro hagree join hjoin
    obtain ⟨found, hfound⟩ := Join.exists_named?_of_mem hjoin
    obtain ⟨first, hfirst, hname, rfl⟩ := Join.exists_mem_of_named? hfound
    rw [exists_makes_iff hquery, hfound, Option.some.injEq, Join.outer_eq_outer_iff]
    exact ⟨hname, hagree first hfirst join hjoin hname⟩

/-- The joins of two relations of a model share a name without being one join exactly when their
names are cut at different underscores, or are spelled alike where tables, keys or targets
differ; and a join goes by the name of the base table exactly when that is spelled like the
join's.  In a query the join of a condition is the first of its name that the filters bring, and
all joins that they bring stand exactly when those of one name are one join. -/
theorem joinIdentity_of_ofRequest (hquery : ofRequest schema request config dialect = .ok query) :
    (∀ (first second : Relation) (firstKey secondKey : ColumnName) (one two : Join),
      first.join? firstKey config.relationJoin = some one →
      second.join? secondKey config.relationJoin = some two →
      (one.AgreeByName two ↔ first.ToldApart second firstKey secondKey) ∧
      (one.asName = schema.tableName ↔
        schema.tableName.toList = first.spelledTable ++ '_' :: firstKey.column.toList)) ∧
    (∃ predicate, Assembled (schema.requestParts config request) predicate ∧
      query.select.condition = predicate.condition) ∧
    (∀ part ∈ schema.requestParts config request, ∀ join ∈ part.joins,
      ((∃ clause ∈ query.select.joins, clause.Makes join) ↔
        Join.named? join.asName (schema.broughtJoins config request) = some join.outer)) ∧
    ((∀ part ∈ schema.requestParts config request, ∀ join ∈ part.joins,
        ∃ clause ∈ query.select.joins, clause.Makes join) ↔
      ∀ one ∈ schema.broughtJoins config request, ∀ two ∈ schema.broughtJoins config request,
        one.AgreeByName two) := by
  refine ⟨fun first second firstKey secondKey one two hone htwo => ⟨?_, ?_⟩, ?_, ?_, ?_⟩
  · exact Relation.agreeByName_iff hone htwo
  · exact Relation.asName_eq_iff_chars hone schema.tableName
  · obtain ⟨predicate, hpredicate, -, hcondition⟩ := exists_requestPredicate hquery
    exact ⟨predicate, Schema.assembled_requestPredicate hpredicate, hcondition⟩
  · exact fun _ _ join _ => exists_makes_iff hquery join
  · rw [← forall_exists_makes_iff hquery]
    simp only [Schema.broughtJoins, List.mem_flatMap]
    constructor
    · rintro hstand join ⟨part, hpart, hjoin⟩
      exact hstand part hpart join hjoin
    · intro hstand part hpart join hjoin
      exact hstand join ⟨part, hpart, hjoin⟩

end Query

namespace JoinIdentity

/-- A foreign key to a column of a table that is searched through a name. -/
def keyTo (column table target : String) : Field :=
  (Field.foreignKey column "int" table target).searchedThrough "name:string"

/-- A model with two foreign keys. -/
def twoKeys (table : String) (first second : Field) : Schema :=
  ((Schema.ofTable table).withField "first" first).withField "second" second

/-- A request about both keys. -/
def askBoth : Request :=
  (Request.empty.addFilter "first" "ann").addFilter "second" "bob"

/-- Posts with an author and an editor, both of them users, join the users twice. -/
theorem exists_makes_users :
    ∃ query, Query.ofRequest
        (twoKeys "posts" (keyTo "author_id" "users" "id") (keyTo "editor_id" "users" "id"))
        askBoth .standard .postgres = .ok query ∧
      query.select.joins.length = 2 ∧
      ∀ part ∈ (twoKeys "posts" (keyTo "author_id" "users" "id")
          (keyTo "editor_id" "users" "id")).requestParts .standard askBoth,
        ∀ join ∈ part.joins, ∃ clause ∈ query.select.joins, clause.Makes join := by
  refine ⟨_, rfl, rfl, ?_⟩
  apply (@Query.joinIdentity_of_ofRequest (twoKeys "posts" (keyTo "author_id" "users" "id")
    (keyTo "editor_id" "users" "id")) askBoth .standard .postgres _ rfl).2.2.2.mpr
  have hnames : (((twoKeys "posts" (keyTo "author_id" "users" "id")
      (keyTo "editor_id" "users" "id")).broughtJoins .standard askBoth).map Join.asName).Nodup := by
    decide
  intro one hone two htwo hname
  rw [List.inj_on_of_nodup_map hnames hone htwo hname]
  exact ⟨rfl, rfl⟩

/-- Names are not enough to tell joins apart.  One key that leads to two columns of a table, and
two tables with keys that run into each other, are joined once where both joins are needed; and
a related table may be joined under the name of the base table. -/
theorem joins_share_names :
    (∃ query one two,
      Query.ofRequest (twoKeys "orders" (keyTo "customer_ref" "customers" "id")
        (keyTo "customer_ref" "customers" "legacy_id")) askBoth .standard .postgres =
          .ok query ∧
      (keyTo "customer_ref" "customers" "id").searchJoin? ⟨"orders", .inner⟩ = some one ∧
      (keyTo "customer_ref" "customers" "legacy_id").searchJoin? ⟨"orders", .inner⟩ = some two ∧
      ((keyTo "customer_ref" "customers" "legacy_id").valuePredicate ⟨"orders", .inner⟩
        "bob").condition.isSome = true ∧
      one.asName = two.asName ∧ one.on ≠ two.on ∧ query.select.joins = [one.toClause]) ∧
    (∃ query one two,
      Query.ofRequest (twoKeys "users" (keyTo "team_id" "crm" "id") (keyTo "id" "crm.team" "id"))
        askBoth .standard .postgres = .ok query ∧
      (keyTo "team_id" "crm" "id").searchJoin? ⟨"users", .inner⟩ = some one ∧
      (keyTo "id" "crm.team" "id").searchJoin? ⟨"users", .inner⟩ = some two ∧
      ((keyTo "id" "crm.team" "id").valuePredicate ⟨"users", .inner⟩
        "bob").condition.isSome = true ∧
      one.asName = two.asName ∧ one.table ≠ two.table ∧ query.select.joins = [one.toClause]) ∧
    ∃ join, (keyTo "company_id" "companies" "id").searchJoin? ⟨"companies_company_id", .inner⟩ =
      some join ∧ join.asName = "companies_company_id" := by
  refine ⟨⟨_, _, _, rfl, rfl, rfl, by decide, by decide, ?_, rfl⟩,
    ⟨_, _, _, rfl, rfl, rfl, by decide, by decide, by decide, rfl⟩, _, rfl, by decide⟩
  intro hon
  have hnames := congrArg Expr.names hon
  revert hnames
  decide

end JoinIdentity

end FilterSql

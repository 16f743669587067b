/-
What filters can reach.

A request may filter on the fields that have a column, are searched or relate to another
table, and are among those that it names.  Its query tests columns of these fields alone,
whatever the values of its filters are; and a key that stands for none of them changes
nothing, not even when its value could not be read.
-/
import FilterSql.Proofs.Filter.Mentions
import FilterSql.Proofs.Query.Clauses
import FilterSql.Proofs.Query.WithoutFilter

namespace FilterSql

/-- A column stands in the condition of a statement, or in a condition that it joins on. -/
def Select.Tests (select : Select) (name : ColumnName) : Prop :=
  (∃ condition ∈ select.condition, condition.Mentions name) ∨
    ∃ clause ∈ select.joins, clause.on.Mentions name

namespace Schema

/-- A field with its name that may be filtered on, among the allowed ones where those are given. -/
structure MayFilter (schema : Schema) (allowed : Option (List String)) (name : String)
    (field : Field) : Prop where
  named : schema.field? name = some field
  column : ∃ column, field.dbColumn = some column
  reached : field.isSearchable = true ∨ field.isRelation = true
  allowed : ∀ names ∈ allowed, name ∈ names

variable {schema : Schema} {allowed : Option (List String)} {request : Request} {config : Config}

theorem mem_filterableFields_iff {name : String} {field : Field} :
    (name, field) ∈ schema.filterableFields allowed ↔ schema.MayFilter allowed name field := by
  have hallowed : isAllowed allowed name = true ↔ ∀ names ∈ allowed, name ∈ names := by
    cases allowed <;> simp [isAllowed]
  have hfilterable : isFilterable field = true ↔
      (∃ column, field.dbColumn = some column) ∧
        (field.isSearchable = true ∨ field.isRelation = true) := by
    rw [isFilterable, Bool.and_eq_true, Bool.or_eq_true, Option.isSome_iff_exists]
  rw [filterableFields, List.mem_filter, Bool.and_eq_true, hallowed, hfilterable,
    ← Dict.find?_eq_some_iff]
  constructor
  · rintro ⟨hnamed, ⟨hcolumn, hreached⟩, hnames⟩
    exact ⟨hnamed, hcolumn, hreached, hnames⟩
  · rintro ⟨hnamed, hcolumn, hreached, hnames⟩
    exact ⟨hnamed, ⟨hcolumn, hreached⟩, hnames⟩

theorem valueNamed?_filterableFields_iff {name : String} {field : Field} :
    valueNamed? name (schema.filterableFields allowed) = some field ↔
      schema.MayFilter allowed name field := by
  rw [← mem_filterableFields_iff]
  exact ⟨mem_of_valueNamed?, valueNamed?_of_mem (schema.fields.sorted.filter _)⟩

theorem mem_allowedFields_iff {field : Field} :
    field ∈ schema.allowedFields request ↔
      ∃ name, schema.MayFilter request.filterable name field := by
  simp [allowedFields, mem_filterableFields_iff]

/-- A key that stands for no field to filter on asks for nothing, whatever its values are. -/
theorem keyPredicate_of_not_mayFilter {key : String} (hsearch : key ≠ config.searchKey)
    (hkey : ∀ field, ¬ schema.MayFilter allowed key field) (value : FilterValue) :
    schema.keyPredicate config (schema.filterableFields allowed) key value = .ok .none := by
  have hnone : valueNamed? key (schema.filterableFields allowed) = none := by
    rw [Option.eq_none_iff_forall_ne_some]
    intro field hfield
    exact hkey field (valueNamed?_filterableFields_iff.mp hfield)
  simp only [keyPredicate, if_neg hsearch, hnone]

end Schema

namespace Schema

variable {schema : Schema} {request : Request} {config : Config}

/-- Such a key makes no difference, wherever its name puts it and whatever its values were. -/
theorem requestPredicate_insert {key : String} (hsearch : key ≠ config.searchKey)
    (hkey : ∀ field, ¬ schema.MayFilter request.filterable key field) (value : FilterValue) :
    schema.requestPredicate { request with filters := request.filters.insert key value } config =
      schema.requestPredicate request config := by
  -- Both requests are the same without the key, which asks for nothing in either.
  have hwithout :
      { request with filters := request.filters.insert key value }.withoutFilter key =
        request.withoutFilter key := by
    simp only [Request.withoutFilter, Dict.erase_insert]
  have hask := fun value (_ : value ∈ request.filters.find? key) =>
    keyPredicate_of_not_mayFilter hsearch hkey value
  rw [← requestPredicate_withoutFilter hask, ← hwithout, requestPredicate_withoutFilter]
  exact fun value _ => keyPredicate_of_not_mayFilter hsearch hkey value

end Schema

namespace Query

variable {schema : Schema} {request : Request} {config : Config} {dialect : Dialect}

theorem exists_gives_of_tests {query : Query}
    (hquery : ofRequest schema request config dialect = .ok query) {name : ColumnName}
    (hname : query.select.Tests name) :
    ∃ field ∈ schema.allowedFields request, field.Gives (config.scope schema.tableName) name := by
  obtain ⟨hcondition, hjoins⟩ := every_isAbout_of_ofRequest hquery
  rcases hname with ⟨condition, hmem, hname⟩ | ⟨clause, hclause, hname⟩
  · exact hcondition condition hmem _ hname
  · exact hjoins clause hclause _ hname

/-- Filters reach no field but those that a request may filter on: every column that its query
tests is one of theirs, and a key that stands for none of them, and does not ask for a search,
makes no difference to the answer, whatever its values are. -/
theorem tests_of_ofRequest :
    (∀ query, ofRequest schema request config dialect = .ok query →
      ∀ name, query.select.Tests name →
        ∃ key field, schema.MayFilter request.filterable key field ∧
          field.Gives (config.scope schema.tableName) name) ∧
    ∀ key, key ≠ config.searchKey → (∀ field, ¬ schema.MayFilter request.filterable key field) →
      ∀ value : FilterValue,
        ofRequest schema { request with filters := request.filters.insert key value } config
            dialect =
          ofRequest schema request config dialect := by
  constructor
  · intro query hquery name hname
    obtain ⟨field, hfield, hgives⟩ := exists_gives_of_tests hquery hname
    obtain ⟨key, hkey⟩ := Schema.mem_allowedFields_iff.mp hfield
    exact ⟨key, field, hkey, hgives⟩
  · intro key hsearch hkey value
    rw [ofRequest_eq_map, ofRequest_eq_map, Schema.requestPredicate_insert hsearch hkey]
    rfl

end Query

namespace FilterableFields

/-- Users with a name that is searched, a company to be found by its name, and a secret. -/
def users : Schema :=
  (((Schema.ofTable "users").withField "name" (Field.ofColumn "name" "string").searched).withField
    "company" ((Field.foreignKey "company_id" "int" "companies" "id").searchedThrough
      "name:string")).withField "secret" (Field.ofColumn "secret" "string")

/-- A request for users of a company who are found by a word. -/
def askUsers : Request :=
  (Request.empty.addFilter "company" "acme").addFilter "search" "an"

/-- A question for the secret that cannot be read is passed over, and the query tests columns of
the other fields alone. -/
theorem tests_of_users :
    ("secret" ≠ Config.standard.searchKey ∧ ∀ field, ¬ users.MayFilter none "secret" field) ∧
    ∃ query, Query.ofRequest users askUsers .standard .postgres = .ok query ∧
      Query.ofRequest users (askUsers.addFilter "secret" "(a||") .standard .postgres = .ok query ∧
      query.select.Tests ⟨some "companies_company_id", "id"⟩ ∧
      ∀ name, query.select.Tests name → ∃ key field, users.MayFilter none key field ∧
        field.Gives (Config.standard.scope "users") name := by
  have hsecret : ∀ field, ¬ users.MayFilter none "secret" field := by
    rintro field ⟨⟨⟩, -, hreached, -⟩
    revert hreached
    decide
  obtain ⟨htests, hignored⟩ := @Query.tests_of_ofRequest users askUsers .standard .postgres
  refine ⟨⟨by decide, hsecret⟩, _, rfl, ?_, ?_, htests _ rfl⟩
  · exact hignored "secret" (by decide) hsecret (.single "(a||")
  · refine Or.inr ⟨_, List.mem_cons_self, ?_⟩
    exact Expr.mentions_binary.mpr (Or.inl (Expr.mentions_column.mpr rfl))

end FilterableFields

end FilterSql

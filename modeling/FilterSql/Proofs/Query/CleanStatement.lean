/-
Queries of clean names.

Names reach a statement from the table and the fields of a model and from the columns and
the sorting of a request.  On every one of these ways a name is cleaned, so the text of a
query holds nothing but words of the fixed stock, placeholders and clean names in quotes.
-/
import FilterSql.Proofs.Filter.CleanPredicate
import FilterSql.Proofs.Query.Clauses

namespace FilterSql

namespace Schema

variable (schema : Schema)

theorem isNameText_tableName : IsNameText schema.tableName :=
  (isNameText_ofList _).mpr ((isClean_nameChars _).strip _)

theorem isCleanName_of_column? {name : String} {column : ColumnName}
    (hcolumn : schema.column? name = some column) : column.IsCleanName := by
  rw [column?] at hcolumn
  split at hcolumn
  · exact ColumnName.isCleanName_of_ofText? hcolumn
  · obtain ⟨field, -, hfield⟩ := Option.bind_eq_some_iff.mp hcolumn
    obtain ⟨raw, -, hresolved⟩ := Option.bind_eq_some_iff.mp hfield
    exact ColumnName.isCleanName_of_resolve? hresolved

theorem isNameText_of_starTable? {name table : String} (htable : starTable? name = some table) :
    IsNameText table := by
  rw [starTable?] at htable
  split at htable
  · cases htable
    exact isNameText_sanitized _
  · cases htable

variable {schema} in
theorem every_isCleanNode_of_lists {expr : Expr} (hexpr : schema.Lists expr) :
    expr.Every Expr.IsCleanNode := by
  cases hexpr with
  | base => simpa using schema.isNameText_tableName
  | star hname _ => simpa using isNameText_of_starTable? hname
  | column hcolumn => simpa using schema.isCleanName_of_column? hcolumn

/-- The statement of a predicate of clean names is clean. -/
theorem isClean_statement {request : Request} {config : Config} {predicate : Predicate}
    (hpredicate : predicate.Satisfies (fun expr => expr.Every Expr.IsCleanNode) Join.IsClean) :
    (schema.statement request config predicate).IsClean := by
  have hvalue : ∀ value, (Expr.value value).Every Expr.IsCleanNode :=
    fun value => (Expr.every_value value).mpr (Expr.isCleanNode_of_bare rfl rfl)
  constructor
  · exact fun expr hexpr => every_isCleanNode_of_lists (lists_of_mem_projection expr hexpr)
  · rintro source ⟨⟩
    simpa [Source.names] using schema.isNameText_tableName
  · rw [statement, List.forall_mem_map]
    intro join hjoin
    have hclean := hpredicate.joins join hjoin
    simpa [Join.toClause, Source.names] using ⟨hclean.table, hclean.asName⟩
  · rw [statement, List.forall_mem_map]
    exact fun join hjoin => (hpredicate.joins join hjoin).on
  · exact hpredicate.condition
  · exact fun ordering hordering =>
      every_isCleanNode_of_lists (lists_of_mem_orderings ordering hordering)
  · intro expr hexpr
    obtain ⟨page, -, rfl⟩ := Option.map_eq_some_iff.mp hexpr
    exact hvalue _
  · intro expr hexpr
    obtain ⟨page, -, rfl⟩ := Option.map_eq_some_iff.mp hexpr
    exact hvalue _

end Schema

/-- So is the statement that counts the rows of a clean one. -/
theorem Select.IsClean.toCount {select : Select} (hselect : select.IsClean) {asName : String}
    (hname : IsNameText asName) : (select.toCount asName).IsClean :=
  { hselect with
    columns := by
      intro expr hexpr
      rcases List.mem_singleton.mp hexpr with rfl
      rw [Expr.every_named, Expr.countAll, Expr.every_callStar]
      exact ⟨⟨by simpa [Expr.ownNames] using hname, by simp [Expr.function?]⟩,
        ⟨by simp [Expr.ownNames], by simp [Expr.function?, Lexeme.functionNames]⟩⟩
    orderings := by simp [Select.toCount]
    limit := by simp [Select.toCount]
    offset := by simp [Select.toCount] }

namespace Query

/-- Clean names everywhere in a query, and nothing but allowed pieces in its two texts. -/
structure IsClean (query : Query) : Prop where
  names : ∀ name ∈ query.select.names ++ query.countSelect.names, IsNameText name
  texts : ∀ text ∈ [query.sql, query.countSql], IsStatementText query.dialect text
  harmless : ∀ text ∈ [query.sql, query.countSql], ∀ c ∈ text.toList, c ∉ harmful
  balanced : ∀ text ∈ [query.sql, query.countSql],
    Even (text.toList.count query.dialect.quote)

variable {schema : Schema} {request : Request} {config : Config} {dialect : Dialect}

theorem isClean_select {query : Query}
    (hquery : ofRequest schema request config dialect = .ok query) :
    query.select.IsClean ∧ query.dialect = dialect := by
  obtain ⟨predicate, hpredicate, rfl⟩ := exists_statement hquery
  have hsatisfies := Schema.satisfies_requestPredicate stable_isClean
    (fun field _ => field.meets_isClean (config.scope schema.tableName)) hpredicate
  exact ⟨schema.isClean_statement hsatisfies, rfl⟩

theorem isClean_countSelect {query : Query} (hquery : query.select.IsClean) :
    query.countSelect.IsClean := by
  apply hquery.toCount
  intro c hc
  have haggregate : "aggregate".toList.all isNameChar = true := by decide
  exact List.all_eq_true.mp haggregate c hc

/-- Whatever texts a model and a request hold, the query that comes of them is clean. -/
theorem isClean_of_ofRequest {query : Query}
    (hquery : ofRequest schema request config dialect = .ok query) :
    query.dialect = dialect ∧ query.IsClean := by
  obtain ⟨hselect, hdialect⟩ := isClean_select hquery
  have hcount := isClean_countSelect hselect
  have htexts : ∀ text ∈ [query.sql, query.countSql], IsStatementText query.dialect text := by
    simp only [List.forall_mem_cons, List.not_mem_nil, false_imp_iff, implies_true, and_true]
    exact ⟨hselect.isStatement_template.sqlFrom 0, hcount.isStatement_template.sqlFrom 0⟩
  refine ⟨hdialect, ?_, htexts, ?_, ?_⟩
  · intro name hname
    rcases List.mem_append.mp hname with hname | hname
    · exact hselect.isNameText_of_mem_names name hname
    · exact hcount.isNameText_of_mem_names name hname
  · intro text htext
    exact (htexts text htext).not_mem_harmful
  · intro text htext
    exact (htexts text htext).even_count_quote

/-- A model whose texts try to end a name, a literal or the statement. -/
def hostileSchema : Schema :=
  ((Schema.ofTable "users\"; drop table users; --").withField "name"
    (Field.ofColumn "name' or '1'='1" "string").searched).withField "company"
    ((Field.foreignKey "company_id\\" "int" "companies\"" "id;").searchedThrough "name\"--:string")

/-- A request whose texts do the same. -/
def hostileRequest : Request :=
  ((Request.empty.addFilter "company" "'; --").addSort ⟨"users\".id; --", .descending⟩).withFields
    ["users\".*", "name", "users.pass\"word"]

theorem isClean_of_hostileRequest :
    ∃ query, ofRequest hostileSchema hostileRequest .standard .postgres = .ok query ∧
      query.dialect = .postgres ∧ query.IsClean :=
  ⟨_, rfl, @isClean_of_ofRequest hostileSchema hostileRequest .standard .postgres _ rfl⟩

end Query

end FilterSql

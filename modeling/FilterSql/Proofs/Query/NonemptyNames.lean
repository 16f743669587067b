/-
Names that are not empty.

Names reach a query from the columns, relations and related columns of fields, from the columns
to show and to sort by, and from the base table.  On all ways but the last one, what is left of
a text is looked at, and a name of which nothing is left is not used.  The base table must not
be blank, which leaves tables of other characters that no name keeps: their queries have an
empty name, and those of all other tables have none.
-/
import FilterSql.Proofs.Filter.JoinNames
import FilterSql.Proofs.Query.Clauses
import FilterSql.Proofs.Query.CleanStatement
import FilterSql.Proofs.Sql.ReadName

namespace FilterSql

/-- No name that a node mentions by itself is empty. -/
def Expr.IsNamed (node : Expr) : Prop :=
  ∀ name ∈ node.ownNames, name ≠ ""

namespace Expr

@[simp] theorem isNamed_column {name : ColumnName} : (column name).IsNamed ↔ name.IsNamed := by
  simp only [IsNamed, ownNames, List.forall_mem_append, List.forall_mem_singleton,
    Option.mem_toList]
  constructor
  · rintro ⟨htable, hcolumn⟩
    exact ⟨htable, hcolumn⟩
  · rintro ⟨htable, hcolumn⟩
    exact ⟨htable, hcolumn⟩

@[simp] theorem isNamed_star {table : Option String} :
    (star table).IsNamed ↔ ∀ name ∈ table, name ≠ "" := by
  simp [IsNamed, ownNames]

theorem isNamed_of_ownNames {node : Expr} (hnames : node.ownNames = []) : node.IsNamed := by
  simp [IsNamed, hnames]

theorem IsAbout.isNamed {node : Expr} (hnode : node.IsAbout ColumnName.IsNamed) :
    node.IsNamed := by
  cases node with
  | column name => exact isNamed_column.mpr hnode
  | star | callStar | named => exact hnode.elim
  | value | binary | call | castText | inList | between | isNull | datePart =>
      exact isNamed_of_ownNames rfl

end Expr

theorem Field.asName_ne_empty {scope : Scope} {field : Field} {join : Join}
    (hjoin : field.searchJoin? scope = some join) : join.asName ≠ "" := by
  obtain ⟨relation, _, key, -, -, -, hmade⟩ := searchJoin?_eq_some.mp hjoin
  rw [Relation.asName_of_join? hmade, ne_eq, ← String.toList_inj, Relation.toList_joinName]
  simp

theorem Field.table_ne_empty {scope : Scope} {field : Field} {join : Join}
    (hjoin : field.searchJoin? scope = some join) : join.table ≠ "" := by
  obtain ⟨relation, _, key, -, -, -, hmade⟩ := searchJoin?_eq_some.mp hjoin
  obtain ⟨hchars, -⟩ := Relation.join?_eq_some.mp hmade
  rw [Relation.table_of_join? hmade, Relation.tableName]
  simpa using hchars

theorem Field.Gives.isNamed {scope : Scope} (hscope : sanitized scope.table ≠ "") {field : Field}
    {name : ColumnName} (hname : field.Gives scope name) : name.IsNamed := by
  have hjoined : ∀ {raw : String} {join : Join} {target : ColumnName},
      field.searchJoin? scope = some join →
      ColumnName.resolve? raw join.asName = some target → target.IsNamed := by
    intro raw join target hjoin htarget
    refine ColumnName.isNamed_of_resolve? ?_ htarget
    rw [sanitized_eq_self (isClean_of_searchJoin? hjoin).asName]
    exact asName_ne_empty hjoin
  cases hname with
  | own hname =>
      obtain ⟨column, -, hcolumn⟩ := Option.bind_eq_some_iff.mp hname
      exact ColumnName.isNamed_of_resolve? hscope hcolumn
  | @related join hname =>
      obtain ⟨_, _, related, _, hcolumn⟩ := hname.column
      obtain ⟨target, htarget, rfl⟩ := Option.map_eq_some_iff.mp hcolumn
      have hnamed := hjoined hname.searched htarget
      split
      · refine ⟨?_, hnamed.column⟩
        rintro table ⟨⟩
        exact asName_ne_empty hname.searched
      · exact hnamed
  | target _ hjoin hname => exact hjoined hjoin hname

namespace Schema

variable {schema : Schema}

theorem tableName_ne_empty_iff : schema.tableName ≠ "" ↔ HoldsWord schema.table.toList := by
  rw [tableName, ← not_not (a := HoldsWord _), ← strip_nameChars_eq_nil_iff]
  simp

/-- A model is taken only with a table that is not blank. -/
theorem isBlankText_of_ofDocument {text : DocumentText} (hschema : ofDocument text = .ok schema) :
    Text.isBlankText schema.table = false := by
  obtain ⟨read, -, hread⟩ := bind_eq_ok.mp hschema
  obtain ⟨_, hvalid, hsame⟩ := bind_eq_ok.mp hread
  cases hsame
  rw [validate] at hvalid
  split at hvalid
  · cases hvalid
  · next hblank => simpa using hblank

section Named

variable (htable : schema.tableName ≠ "")
include htable

theorem isNamed_of_column? {name : String} {column : ColumnName}
    (hcolumn : schema.column? name = some column) : column.IsNamed := by
  rw [column?] at hcolumn
  split at hcolumn
  · exact ColumnName.isNamed_of_ofText? hcolumn
  · obtain ⟨field, -, hfield⟩ := Option.bind_eq_some_iff.mp hcolumn
    obtain ⟨raw, -, hresolved⟩ := Option.bind_eq_some_iff.mp hfield
    refine ColumnName.isNamed_of_resolve? ?_ hresolved
    rwa [sanitized_eq_self schema.isNameText_tableName]

theorem isNamed_of_lists {expr : Expr} (hexpr : schema.Lists expr) : expr.Every Expr.IsNamed := by
  cases hexpr with
  | base => simpa using htable
  | star _ hsome => simpa using hsome
  | column hcolumn =>
      rw [Expr.every_column, Expr.isNamed_column]
      exact isNamed_of_column? htable hcolumn

end Named

end Schema

namespace Query

variable {schema : Schema} {request : Request} {config : Config} {dialect : Dialect}
  {query : Query}

/-- The tables of a query, and the names that they go by. -/
theorem ne_empty_of_mem_sources (htable : schema.tableName ≠ "")
    (hquery : ofRequest schema request config dialect = .ok query) :
    ∀ source ∈ query.select.sources, ∀ name ∈ source.names, name ≠ "" := by
  rw [Select.sources, List.forall_mem_append, List.forall_mem_map]
  constructor
  · obtain ⟨predicate, -, rfl⟩ := exists_statement hquery
    simpa [Schema.statement, Source.names] using htable
  · intro clause hclause
    obtain ⟨field, -, join, hjoin, hsource, -⟩ := exists_makes_of_mem_joins hquery hclause
    rw [hsource]
    simpa [Join.toClause, Source.names] using
      ⟨Field.table_ne_empty hjoin, Field.asName_ne_empty hjoin⟩

theorem isNamed_of_mem_exprs (htable : schema.tableName ≠ "")
    (hquery : ofRequest schema request config dialect = .ok query) :
    ∀ expr ∈ query.select.exprs, expr.Every Expr.IsNamed := by
  have hscope : sanitized (config.scope schema.tableName).table ≠ "" := by
    rwa [Config.scope, sanitized_eq_self schema.isNameText_tableName]
  have habout : ∀ node : Expr, node.IsAbout (schema.Gives request config) → node.IsNamed := by
    intro node hnode
    apply Expr.IsAbout.isNamed
    apply hnode.imp
    rintro name ⟨field, -, hgives⟩
    exact hgives.isNamed hscope
  obtain ⟨hcondition, hjoins⟩ := every_isAbout_of_ofRequest hquery
  rw [forall_mem_exprs_iff hquery fun value =>
    (Expr.every_value value).mpr (Expr.isNamed_of_ownNames rfl)]
  refine ⟨?_, ?_, ?_, ?_⟩
  · intro expr hexpr
    exact Schema.isNamed_of_lists htable (Schema.lists_of_mem_projection expr hexpr)
  · exact fun clause hclause => (hjoins clause hclause).imp habout
  · exact fun condition hmem => (hcondition condition hmem).imp habout
  · intro ordering hordering
    exact Schema.isNamed_of_lists htable (Schema.lists_of_mem_orderings ordering hordering)

/-- The statement that counts has nothing of its own but the name of the count. -/
theorem eq_or_mem_of_mem_exprs_countSelect {expr : Expr} (hexpr : expr ∈ query.countSelect.exprs) :
    expr = .named .countAll "aggregate" ∨ expr ∈ query.select.exprs := by
  simp only [countSelect, Select.toCount, Select.exprs, List.map_nil, Option.toList_none,
    List.append_nil, List.mem_append, List.mem_singleton] at hexpr ⊢
  rcases hexpr with (hexpr | hexpr) | hexpr
  · exact Or.inl hexpr
  · simp [hexpr]
  · simp [hexpr]

/-- A model is taken only with a table that is not blank.  The names of a query are empty nowhere
exactly when more than that holds: a letter, a digit or an underscore is left of the table. -/
theorem ne_empty_of_ofRequest (hquery : ofRequest schema request config dialect = .ok query) :
    (∀ text, Schema.ofDocument text = .ok schema → Text.isBlankText schema.table = false) ∧
    ((∀ name ∈ query.select.names ++ query.countSelect.names, name ≠ "") ↔
      HoldsWord schema.table.toList) := by
  refine ⟨fun text htext => Schema.isBlankText_of_ofDocument htext, ?_⟩
  rw [← Schema.tableName_ne_empty_iff]
  constructor
  · intro hnames
    apply hnames
    obtain ⟨predicate, -, rfl⟩ := exists_statement hquery
    simp [Select.names, Select.sources, Schema.statement, Source.names]
  · intro htable
    have hsources := ne_empty_of_mem_sources htable hquery
    have hexprs := isNamed_of_mem_exprs htable hquery
    rw [List.forall_mem_append, Select.forall_mem_names_iff, Select.forall_mem_names_iff]
    refine ⟨⟨hsources, hexprs⟩, hsources, ?_⟩
    intro expr hexpr
    rcases eq_or_mem_of_mem_exprs_countSelect hexpr with rfl | hexpr
    · simp [Expr.countAll, Expr.ownNames]
    · exact hexprs expr hexpr

end Query

namespace NonemptyNames

/-- Users with a company, in texts of which not everything is left. -/
def users : Schema :=
  ((Schema.ofTable ".crm.users-").withField "name" (Field.ofColumn "name." "string").searched)
    |>.withField "company" ((Field.foreignKey "company id" "int" "companies;" "id").searchedThrough
      "name:string|-.-:int")

/-- A request for users of a company, with names to show and to sort by of which nothing is left. -/
def askUsers : Request :=
  ((Request.empty.addFilter "company" "acme").addSort ⟨"-.-", .ascending⟩).withFields
    ["name", "-.*", "crm.*", "."]

theorem ne_empty_of_users :
    ∃ query, Query.ofRequest users askUsers .standard .postgres = .ok query ∧
      query.select.columns = [.column ⟨some "crm.users", "name"⟩, .star (some "crm")] ∧
      query.select.joins.length = 1 ∧
      ∀ name ∈ query.select.names ++ query.countSelect.names, name ≠ "" := by
  obtain ⟨-, hnames⟩ := @Query.ne_empty_of_ofRequest users askUsers .standard .postgres _ rfl
  exact ⟨_, rfl, rfl, rfl, hnames.mpr (by decide)⟩

/-- A model of a table of which nothing is left. -/
def dashes : DocumentText :=
  DocumentText.ofText "\x7b\"table\":\"---\"\x7d"

theorem ofDocument_dashes : Schema.ofDocument dashes = .ok (Schema.ofTable "---") := by
  have hread : (match Schema.ofDocument dashes with
      | .ok schema => schema.table == "---" && schema.fields.entries.isEmpty
      | .error _ => false) = true := by decide +kernel
  cases hschema : Schema.ofDocument dashes with
  | error reason => simp [hschema] at hread
  | ok schema =>
      obtain ⟨table, fields⟩ := schema
      simp only [hschema, Bool.and_eq_true, beq_iff_eq, List.isEmpty_iff] at hread
      obtain ⟨rfl, hfields⟩ := hread
      obtain rfl : fields = .empty := Dict.ext hfields
      rfl

/-- The model is taken, and its query shows the columns of a table without a name. -/
theorem empty_name_of_dashes :
    Schema.ofDocument dashes = .ok (Schema.ofTable "---") ∧
    ∃ query, Query.ofRequest (Schema.ofTable "---") .empty .standard .postgres = .ok query ∧
      query.select.columns = [.star (some "")] ∧ "" ∈ query.select.names ∧
      query.sql = "SELECT \"\".* FROM \"\"" := by
  refine ⟨ofDocument_dashes, _, rfl, rfl, List.mem_cons_self, ?_⟩
  decide +kernel

end NonemptyNames

end FilterSql

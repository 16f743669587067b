/-
Queries: what a request asks of a model, as one SELECT statement.

Filters that do not fit their column are left out, and so are keys that nothing may be
filtered on.  The one thing that makes a request fail is an expression that cannot be
read, in a value that is used.
-/
import FilterSql.Query.Request
import FilterSql.Schema.Basic
import FilterSql.Sql.Template

namespace FilterSql

/-- What can go wrong with a query. -/
inductive QueryError
  | malformedFilter (field : String) (reason : ParseError)
  | execution (reason : String)
deriving DecidableEq, Repr

namespace QueryError

/-- The text of an error. -/
def message : QueryError → String
  | malformedFilter field reason =>
      "Malformed filter for field '" ++ field ++ "': " ++ reason.message
  | execution reason => "Query execution failed: " ++ reason

/-- Whether whoever sent the request is to blame. -/
def isClientError : QueryError → Bool
  | malformedFilter _ _ => true
  | execution _ => false

end QueryError

/-- A statement and the database it is written for. -/
structure Query where
  select : Select
  dialect : Dialect

namespace Query

/-- The text of the query. -/
def sql (query : Query) : String :=
  (query.select.template query.dialect).sql query.dialect

/-- The parameters of the query. -/
def params (query : Query) : List Value :=
  (query.select.template query.dialect).params

/-- The statement that counts the rows of the query. -/
def countSelect (query : Query) : Select :=
  query.select.toCount "aggregate"

/-- The text of the statement that counts the rows. -/
def countSql (query : Query) : String :=
  (query.countSelect.template query.dialect).sql query.dialect

/-- The parameters of the statement that counts the rows. -/
def countParams (query : Query) : List Value :=
  (query.countSelect.template query.dialect).params

/-- The query with its values written out, for reading only. -/
def debugSql (query : Query) : String :=
  (query.select.template query.dialect).inlined

end Query

namespace Schema

variable (schema : Schema)

/-- The base table, without dots at its ends. -/
def tableName : String :=
  String.ofList (Text.strip (· == '.') (nameChars schema.table.toList))

/-- Whether a field may be filtered on: it has a column, and is searched or relates. -/
def isFilterable (field : Field) : Bool :=
  field.dbColumn.isSome && (field.isSearchable || field.isRelation)

/-- Whether a request lets a field be filtered on. -/
def isAllowed (allowed : Option (List String)) (name : String) : Bool :=
  match allowed with
  | some names => names.contains name
  | none => true

/-- The fields that a request may filter on, in the order of their names. -/
def filterableFields (allowed : Option (List String)) : List (String × Field) :=
  schema.fields.entries.filter fun (name, field) =>
    isFilterable field && isAllowed allowed name

/-- The values of a filter key that are used: neither blank nor too long. -/
def usableValues (config : Config) (value : FilterValue) : List String :=
  value.values.filter fun raw =>
    raw.utf8ByteSize ≤ config.maxFilterLength.toNat && !Text.isBlankText raw

/-- The column that a name stands for: a field's, or one that the name spells out. -/
def column? (name : String) : Option ColumnName :=
  if ColumnName.namesTable name then ColumnName.ofText? name
  else do
    let field ← schema.field? name
    let column ← field.dbColumn
    ColumnName.resolve? column schema.tableName

/-- The table whose columns a name asks for, when it ends in a dot and a star. -/
def starTable? (name : String) : Option String :=
  match name.toList.reverse with
  | '*' :: '.' :: rest => some (sanitized (String.ofList rest.reverse))
  | _ => none

/-- What a name in a request for columns stands for. -/
def projected? (name : String) : Option Expr :=
  match starTable? name with
  | some table => if table.isEmpty then none else some (.star (some table))
  | none => (schema.column? name).map .column

/-- The columns to show; all of the base table when nothing is left of what was asked. -/
def projection (fields : Option (List String)) : List Expr :=
  let columns := (fields.getD []).filterMap schema.projected?
  if columns.isEmpty then [.star (some schema.tableName)] else columns

/-- The orderings of a request; unknown columns are left out. -/
def orderings (sort : List SortSpec) : List OrderItem :=
  sort.filterMap fun spec =>
    (schema.column? (Text.trimmed spec.column)).map fun column =>
      ⟨.column column, some spec.order.direction⟩

/-- One of the search terms is found in one of the fields that are searched. -/
def searchTerms (config : Config) (fields : List (String × Field)) (terms : List String) :
    Predicate :=
  let searched := (fields.map Prod.snd).filter Field.isSearchable
  .any (terms.map (searchPredicate (config.scope schema.tableName) searched))

/-- One of the values of a key is fulfilled by its field. -/
def fieldValues (config : Config) (key : String) (field : Field) (values : List String) :
    Except QueryError Predicate := do
  let predicates ←
    (values.mapM (field.filterPredicate (config.scope schema.tableName))).mapError
      (.malformedFilter key)
  return .any predicates

/-- What a filter key asks for; a key that nothing may be filtered on asks for nothing. -/
def keyPredicate (config : Config) (fields : List (String × Field)) (key : String)
    (value : FilterValue) : Except QueryError Predicate :=
  let values := usableValues config value
  if key = config.searchKey then .ok (schema.searchTerms config fields values)
  else
    match valueNamed? key fields with
    | some field => schema.fieldValues config key field values
    | none => .ok .none

/-- What all filters of a request ask for together. -/
def requestPredicate (request : Request) (config : Config) : Except QueryError Predicate := do
  let fields := schema.filterableFields request.filterable
  let predicates ← request.filters.entries.mapM fun (key, value) =>
    schema.keyPredicate config fields key value
  return .all predicates

end Schema

/-- A number of 64 bits as a value, the largest integer for those past it. -/
def Value.ofUInt64 (n : UInt64) : Value :=
  .int (Int64.ofInt (min (n.toNat : Int) Int64.maxValue.toInt))

/-- A statement with the limits of a page. -/
def Select.paged (select : Select) (pagination : Pagination) (config : Config) : Select :=
  (select.withLimit (.value (.ofUInt64 (pagination.resolvedLimit config)))).withOffset
    (.value (.ofUInt64 (pagination.resolvedOffset config)))

/-- The query that a request makes of a model. -/
def Query.ofRequest (schema : Schema) (request : Request) (config : Config) (dialect : Dialect) :
    Except QueryError Query := do
  let predicate ← schema.requestPredicate request config
  let source : Source := ⟨⟨none, schema.tableName⟩, none⟩
  let filtered :=
    predicate.apply (Select.ofColumns (schema.projection request.fields) source)
  let ordered := (schema.orderings request.sort).foldl Select.addOrdering filtered
  let select :=
    match request.pagination with
    | some pagination => ordered.paged pagination config
    | none => ordered
  return ⟨select, dialect⟩

end FilterSql

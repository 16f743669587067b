/-
What a filter value means for a field.

A field that relates to another table is matched through the columns it is searched by:
the table is joined under a name of its own, made from the table and the foreign key, so
that two relations to one table do not meet.  A question for absent values is about the
foreign key itself.
-/
import FilterSql.Filter.Condition
import FilterSql.Filter.Predicate
import FilterSql.Filter.Tree
import FilterSql.Schema.Field

namespace FilterSql

/-- The table that plain columns belong to, and how related tables are joined. -/
structure Scope where
  table : String
  relationJoin : JoinKind
deriving DecidableEq, Repr

namespace Relation

/-- The related table, without dots at its ends. -/
def tableChars (relation : Relation) : List Char :=
  Text.strip (· == '.') (nameChars relation.belongsTo.toList)

/-- The name that a related table goes by when it is reached from a column. -/
def joinName (table : List Char) (key : ColumnName) : String :=
  String.ofList (table.map fun c => if c = '.' then '_' else c) ++ "_" ++ key.column

/-- The join that leads from a foreign key to the related table. -/
def join? (relation : Relation) (key : ColumnName) (kind : JoinKind) : Option Join :=
  let table := relation.tableChars
  if table.isEmpty then none
  else
    let asName := joinName table key
    (ColumnName.resolve? relation.relatedField asName).map fun target =>
      ⟨kind, String.ofList table, asName, .binary .eq (.column target) (.column key)⟩

end Relation

/-- The condition of a value on a related column, under the name of a join. -/
def RelatedColumn.condition? (related : RelatedColumn) (join : Join) (raw : String) :
    Option Expr := do
  let column ← join.column? related.column
  column.condition? related.cast raw .byType

namespace Field

variable (scope : Scope) (field : Field)

/-- The column of a field, of the scope's table unless it names another. -/
def column? : Option ColumnName :=
  field.dbColumn.bind fun column => ColumnName.resolve? column scope.table

/-- The join of a field that is searched through related columns. -/
def searchJoin? : Option Join := do
  let relation ← field.relation
  let _ ← field.relatedColumns?
  let key ← field.column? scope
  relation.join? key scope.relationJoin

/-- One of the related columns has the value.  Where none of them accepts it there is no
join either. -/
def relatedPredicate (columns : List RelatedColumn) (join : Join) (raw : String) : Predicate :=
  let matching := Predicate.any
    ((columns.filterMap (RelatedColumn.condition? · join raw)).map Predicate.ofExpr)
  if matching.condition.isNone then .none else matching.withJoin join

/-- A foreign key has a value: through the related columns, or else by itself. -/
def relationPredicate (relation : Relation) (key : ColumnName) (raw : String) : Predicate :=
  match field.relatedColumns? with
  | none => .ofOption (key.condition? field.cast raw .equality)
  | some columns =>
      match relation.join? key scope.relationJoin with
      | none => .none
      | some join => relatedPredicate columns join raw

/-- A field has a value that is no expression. -/
def valuePredicate (raw : String) : Predicate :=
  match field.column? scope with
  | none => .none
  | some key =>
      match NullCheck.ofText? raw with
      | some check => .ofExpr (.isNull (.column key) (check == .isNotNull))
      | none =>
          match field.relation with
          | some relation => relationPredicate scope field relation key raw
          | none => .ofOption (key.condition? field.cast raw .byType)

/-- A field fulfils an expression. -/
def treePredicate : Tree → Predicate
  | .leaf raw => valuePredicate scope field raw
  | .and left right => (treePredicate left).and (treePredicate right)
  | .or left right => (treePredicate left).or (treePredicate right)

/-- A field fulfils a filter value, which is read as an expression where it is one.  Rows
without a related one must not be lost when an expression asks for absent values. -/
def filterPredicate (raw : String) : Except ParseError Predicate :=
  if NullCheck.isAsked raw || !isComposite raw then .ok (valuePredicate scope field raw)
  else do
    let tree ← Tree.ofText raw
    let predicate := treePredicate scope field tree
    if field.isRelation && tree.anyLeaf NullCheck.isAsked then return predicate.outerJoins
    else return predicate

end Field

/-- Global search: one of the fields has the term.  The joins of all fields stand first. -/
def searchPredicate (scope : Scope) (fields : List Field) (term : String) : Predicate :=
  let term := Text.trimmed term
  if term.isEmpty then .none
  else
    let joins := (fields.filterMap (Field.searchJoin? scope)).foldl Predicate.withJoin .none
    joins.and (.any (fields.map fun field => field.valuePredicate scope term))

end FilterSql

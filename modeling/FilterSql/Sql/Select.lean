/-
SELECT statements.

A statement is started from its columns and its table; each clause is then added by an
operation of its own.  Joins and orderings are kept in the order they were added, a
further condition narrows the ones before it, and the last limit and offset count.
-/
import FilterSql.Sql.Expr

namespace FilterSql

/-- A table, in a database schema where one is named. -/
structure TableName where
  schema : Option String
  name : String
deriving DecidableEq, Repr

/-- A table under another name where one is given. -/
structure Source where
  table : TableName
  asName : Option String
deriving DecidableEq, Repr

/-- Which rows without a partner a join keeps. -/
inductive JoinKind
  | inner
  | left
  | right
  | full
deriving DecidableEq, Repr

/-- A further table and the condition that its rows are joined on. -/
structure JoinClause where
  kind : JoinKind
  source : Source
  on : Expr

/-- The direction of an ordering. -/
inductive Direction
  | ascending
  | descending
deriving DecidableEq, Repr

/-- An expression to order by, with its direction where one is given. -/
structure OrderItem where
  expr : Expr
  direction : Option Direction

/-- A SELECT statement, of a table where one is named. -/
structure Select where
  columns : List Expr
  source : Option Source
  joins : List JoinClause
  condition : Option Expr
  orderings : List OrderItem
  limit : Option Expr
  offset : Option Expr

namespace Select

/-- The columns of a table, without further clauses. -/
def ofColumns (columns : List Expr) (source : Source) : Select :=
  ⟨columns, some source, [], none, [], none, none⟩

/-- Join a further table. -/
def addJoin (select : Select) (join : JoinClause) : Select :=
  { select with joins := select.joins ++ [join] }

/-- Keep only the rows that also fulfil a condition. -/
def addCondition (select : Select) (condition : Expr) : Select :=
  { select with
    condition :=
      match select.condition with
      | some before => some (before.and condition)
      | none => some condition }

/-- Order by one more expression. -/
def addOrdering (select : Select) (ordering : OrderItem) : Select :=
  { select with orderings := select.orderings ++ [ordering] }

/-- Give at most this many rows. -/
def withLimit (select : Select) (limit : Expr) : Select :=
  { select with limit := some limit }

/-- Leave out this many rows. -/
def withOffset (select : Select) (offset : Expr) : Select :=
  { select with offset := some offset }

/-- The number of rows of a statement, without its order and its limits. -/
def toCount (select : Select) (asName : String) : Select :=
  { columns := [.named .countAll asName]
    source := select.source
    joins := select.joins
    condition := select.condition
    orderings := []
    limit := none
    offset := none }

end Select

end FilterSql

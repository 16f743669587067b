/-
Conditions with the joins that they need.

A predicate may have no condition; it then says nothing about rows, and combining leaves
it out.  Joins are told apart by the names they go by, and each name is joined once.
-/
import FilterSql.Sql.Select

namespace FilterSql

/-- A related table, the name it goes by, and the condition that its rows are joined on. -/
structure Join where
  kind : JoinKind
  table : String
  asName : String
  on : Expr

namespace Join

/-- A related column under the name of the join; the related table's own name before a
column is replaced by it. -/
def column? (join : Join) (raw : String) : Option ColumnName :=
  (ColumnName.resolve? raw join.asName).map fun name =>
    if name.table = some join.table then { name with table := some join.asName } else name

/-- The join as a clause of a statement. -/
def toClause (join : Join) : JoinClause :=
  ⟨join.kind, ⟨⟨none, join.table⟩, some join.asName⟩, join.on⟩

/-- The join, keeping rows without a related one. -/
def outer (join : Join) : Join :=
  { join with kind := .left }

/-- Add a join to others, unless one of its name is there; that one becomes a left join
if the new one is. -/
def insertInto (join : Join) : List Join → List Join
  | [] => [join]
  | other :: others =>
      if other.asName = join.asName then
        (if join.kind = .left then other.outer else other) :: others
      else other :: insertInto join others

end Join

/-- A condition, if there is one, with its joins. -/
structure Predicate where
  condition : Option Expr
  joins : List Join

namespace Predicate

/-- No condition and no joins. -/
def none : Predicate := ⟨.none, []⟩

/-- A condition, or none, without joins. -/
def ofOption (condition : Option Expr) : Predicate := ⟨condition, []⟩

/-- A condition without joins. -/
def ofExpr (condition : Expr) : Predicate := ofOption (some condition)

/-- Neither a condition nor a join. -/
def isEmpty (predicate : Predicate) : Bool :=
  predicate.condition.isNone && predicate.joins.isEmpty

/-- The predicate with one more join. -/
def withJoin (predicate : Predicate) (join : Join) : Predicate :=
  { predicate with joins := join.insertInto predicate.joins }

/-- The predicate with left joins only. -/
def outerJoins (predicate : Predicate) : Predicate :=
  { predicate with joins := predicate.joins.map Join.outer }

/-- Two conditions under an operator; one alone is kept as it is. -/
def mergeConditions (op : Expr → Expr → Expr) : Option Expr → Option Expr → Option Expr
  | some left, some right => some (op left right)
  | some left, .none => some left
  | .none, right => right

/-- Two predicates under an operator, with the joins of both. -/
def combine (op : Expr → Expr → Expr) (left right : Predicate) : Predicate :=
  { condition := mergeConditions op left.condition right.condition
    joins := right.joins.foldl (fun joins join => join.insertInto joins) left.joins }

/-- Both predicates. -/
def and (left right : Predicate) : Predicate :=
  combine Expr.and left right

/-- One of two predicates. -/
def or (left right : Predicate) : Predicate :=
  combine Expr.or left right

@[simp] theorem and_none (predicate : Predicate) : predicate.and none = predicate := by
  rcases predicate with ⟨_ | condition, joins⟩ <;> rfl

@[simp] theorem or_none (predicate : Predicate) : predicate.or none = predicate := by
  rcases predicate with ⟨_ | condition, joins⟩ <;> rfl

/-- All predicates of a list. -/
def all (predicates : List Predicate) : Predicate :=
  predicates.foldl and none

/-- One of the predicates of a list. -/
def any (predicates : List Predicate) : Predicate :=
  predicates.foldl or none

/-- Write the joins and the condition into a statement. -/
def apply (predicate : Predicate) (select : Select) : Select :=
  let joined := predicate.joins.foldl (fun select join => select.addJoin join.toClause) select
  match predicate.condition with
  | some condition => joined.addCondition condition
  | .none => joined

end Predicate

end FilterSql

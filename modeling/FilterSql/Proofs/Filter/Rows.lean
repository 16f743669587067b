/-
Which rows a predicate keeps.

A row of the base table leads to at most one row of each table that is joined to it.  A
row without a partner is dropped by a join that needs one; by a left join it is kept, and
all columns of the related table are then absent.
-/
import FilterSql.Filter.Predicate
import FilterSql.Proofs.Sql.Truth

namespace FilterSql

/-- Whether a join drops the rows that find no partner. -/
def JoinKind.needsPartner : JoinKind → Bool
  | inner => true
  | left => false
  | right => true
  | full => false

/-- A row of the base table, and the row that a join of a table on a condition leads to. -/
structure BaseRow where
  value : String → Value
  related : String → Expr → Option (String → Value)

namespace BaseRow

variable (row : BaseRow)

/-- The related row of a join. -/
def partner? (join : Join) : Option (String → Value) :=
  row.related join.table join.on

/-- The value of a column of the base table, or of a joined one under the name it goes by. -/
def read (base : String) (joins : List Join) (name : ColumnName) : Value :=
  if name.table = some base then row.value name.column
  else
    match joins.find? fun join => name.table = some join.asName with
    | some join =>
        match row.partner? join with
        | some related => related name.column
        | none => .null
    | none => .null

/-- A join lets a row through. -/
def Passes (join : Join) : Prop :=
  join.kind.needsPartner = true → (row.partner? join).isSome = true

instance (join : Join) : Decidable (row.Passes join) :=
  inferInstanceAs (Decidable (_ → _))

end BaseRow

namespace Predicate

/-- A row passes all joins, and the condition, if there is one, is true of it. -/
def Keeps (engine : Engine) (base : String) (row : BaseRow) (predicate : Predicate) : Prop :=
  (∀ join ∈ predicate.joins, row.Passes join) ∧
    ∀ condition ∈ predicate.condition,
      condition.truth engine (row.read base predicate.joins) = .yes

instance (engine : Engine) (base : String) (row : BaseRow) (predicate : Predicate) :
    Decidable (predicate.Keeps engine base row) :=
  inferInstanceAs (Decidable (_ ∧ _))

end Predicate

end FilterSql

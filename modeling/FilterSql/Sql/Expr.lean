/-
SQL expressions.

Column names here are taken as they are: whoever builds an expression from names that come
from outside sanitizes them first.  Values never become text of a statement; they are
bound to placeholders.
-/
import FilterSql.Sql.Name
import FilterSql.Value

namespace FilterSql

/-- The operators between two operands. -/
inductive BinaryOp
  | eq
  | notEq
  | lt
  | ltEq
  | gt
  | gtEq
  | like
  | and
  | or
deriving DecidableEq, Repr

/-- The parts of a date. -/
inductive DatePart
  | year
  | month
  | day
deriving DecidableEq, Repr

/-- An SQL expression. -/
inductive Expr
  | column (name : ColumnName)
  /-- All columns, of one table where it is named. -/
  | star (table : Option String)
  | value (v : Value)
  | binary (op : BinaryOp) (left right : Expr)
  | call (function : String) (arguments : List Expr)
  /-- A function of all rows, such as `COUNT(*)`. -/
  | callStar (function : String)
  | named (expr : Expr) (asName : String)
  | castText (expr : Expr)
  | inList (expr : Expr) (items : List Expr) (negated : Bool)
  | between (expr low high : Expr) (negated : Bool)
  | isNull (expr : Expr) (negated : Bool)
  | datePart (part : DatePart) (expr : Expr)

namespace Expr

instance : Inhabited Expr := ⟨star none⟩

/-- Both expressions hold. -/
def and (left right : Expr) : Expr :=
  binary .and left right

/-- One of the expressions holds. -/
def or (left right : Expr) : Expr :=
  binary .or left right

/-- All expressions hold, joined from the left; none for no expressions. -/
def conjunction? : List Expr → Option Expr
  | [] => none
  | expr :: exprs => some (exprs.foldl and expr)

/-- The number of rows. -/
def countAll : Expr :=
  callStar "COUNT"

end Expr

end FilterSql

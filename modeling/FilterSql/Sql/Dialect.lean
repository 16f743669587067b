/-
What the supported databases write differently.
-/
import FilterSql.Sql.Expr

namespace FilterSql

/-- The databases that statements are written for. -/
inductive Dialect
  | postgres
  | mySql
deriving DecidableEq, Repr

namespace Dialect

/-- The names that a dialect is chosen by. -/
def names : List (String × Dialect) :=
  [("postgres", postgres), ("postgresql", postgres), ("pg", postgres), ("mysql", mySql)]

/-- The dialect of a name, or the name in lower case when there is none. -/
def ofName (name : String) : Except String Dialect :=
  let lower := String.ofList (Text.asciiLower name.toList)
  match names.lookup lower with
  | some dialect => .ok dialect
  | none => .error lower

/-- What to say about a name that is no dialect. -/
def unsupported (name : String) : String :=
  s!"Unsupported dialect: {name}"

/-- The name of the database. -/
def database : Dialect → String
  | postgres => "PostgreSQL"
  | mySql => "MySQL"

/-- The quote around names. -/
def quote : Dialect → Char
  | postgres => '"'
  | mySql => '\x60'

/-- A name in quotes, those inside it doubled. -/
def quoteName (dialect : Dialect) (name : String) : String :=
  Text.quoted dialect.quote name

/-- What stands for the parameter of an index, counted from zero. -/
def placeholder (dialect : Dialect) (index : Nat) : String :=
  match dialect with
  | postgres => "$" ++ String.ofList (Nat.toDigits 10 (index + 1))
  | mySql => "?"

/-- The type of texts in a cast. -/
def textType : Dialect → String
  | postgres => "TEXT"
  | mySql => "CHAR"

/-- The keyword of a part of a date. -/
def partName : DatePart → String
  | .year => "YEAR"
  | .month => "MONTH"
  | .day => "DAY"

/-- What stands before and after an expression to take a part of a date from it. -/
def aroundPart (dialect : Dialect) (part : DatePart) : String × String :=
  match dialect with
  | postgres => ("CAST(EXTRACT(" ++ partName part ++ " FROM ", ") AS INTEGER)")
  | mySql => (partName part ++ "(", ")")

end Dialect

end FilterSql

/-
Types of columns, as a filter sees them.

A cast is a type name in any case, perhaps with details after a colon: `string:128`.
-/
import FilterSql.Text.Basic

namespace FilterSql

/-- The kinds of columns that conditions can be built for. -/
inductive ColumnType
  | string
  | int
  | float
  | bool
  | temporal
deriving DecidableEq, Repr

namespace ColumnType

/-- The name of a type. -/
def name : ColumnType → String
  | string => "string"
  | int => "int"
  | float => "float"
  | bool => "bool"
  | temporal => "temporal"

/-- The names that casts use, with the types they stand for. -/
def castNames : List (String × ColumnType) :=
  [("string", string), ("int", int), ("integer", int), ("float", float), ("real", float),
    ("double", float), ("decimal", float), ("bool", bool), ("boolean", bool),
    ("date", temporal), ("datetime", temporal)]

/-- The name in a cast: what stands before the first colon, in lower case. -/
def castName (cast : String) : String :=
  String.ofList (Text.asciiLower (Text.trim (cast.toList.takeWhile (· != ':'))))

/-- The type that a cast names, none for an unknown one. -/
def ofCast? (cast : String) : Option ColumnType :=
  castNames.lookup (castName cast)

end ColumnType

end FilterSql

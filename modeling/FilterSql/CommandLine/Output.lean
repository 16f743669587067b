/-
What the program prints.
-/
import FilterSql.Query.Basic
import FilterSql.Row

namespace FilterSql.CommandLine

/-- Parameters as one line of JSON. -/
def paramsLine (params : List Value) : String :=
  "-- params: " ++ (Json.ofList Value.toJson params).compact ++ "\n"

/-- A compiled query: with its values written out, or as the two statements with their
parameters. -/
def printedQuery (query : Query) (inline : Bool) : String :=
  if inline then query.debugSql ++ ";\n"
  else
    query.sql ++ ";\n" ++ paramsLine query.params ++
      query.countSql ++ ";\n" ++ paramsLine query.countParams

/-- A row as one line of JSON. -/
def printedRow (row : Row) : String :=
  row.toJson.compact ++ "\n"

end FilterSql.CommandLine

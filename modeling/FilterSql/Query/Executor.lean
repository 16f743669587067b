/-
Running queries.

Whatever runs a statement gets its text and its parameters, and answers with rows, with a
count, or with rows one by one, each of which may be an error.
-/
import FilterSql.Query.Basic
import FilterSql.Row

namespace FilterSql

/-- A way to run statements; errors are told by their text. -/
structure Executor (m : Type → Type) where
  fetchRows : String → List Value → m (Except String (List Row))
  fetchCount : String → List Value → m (Except String Int64)
  fetchStream : String → List Value → m (Except String (List (Except String Row)))

namespace Query

variable {m : Type → Type} [Monad m]

/-- The rows of the query. -/
def rows (query : Query) (executor : Executor m) : m (Except QueryError (List Row)) := do
  let answer ← executor.fetchRows query.sql query.params
  return answer.mapError .execution

/-- The number of rows of the query, without its limits. -/
def count (query : Query) (executor : Executor m) : m (Except QueryError Int64) := do
  let answer ← executor.fetchCount query.countSql query.countParams
  return answer.mapError .execution

/-- The rows of the query one by one. -/
def stream (query : Query) (executor : Executor m) :
    m (Except QueryError (List (Except QueryError Row))) := do
  let answer ← executor.fetchStream query.sql query.params
  return (answer.map fun items => items.map fun item => item.mapError .execution).mapError
    .execution

end Query

end FilterSql

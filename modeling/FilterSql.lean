import FilterSql.Main
import FilterSql.Postgres.Bind
import FilterSql.Postgres.Column
import FilterSql.Query.Executor
import FilterSql.Proofs.Calendar.DayNumber
import FilterSql.Proofs.Calendar.Moments
import FilterSql.Proofs.Filter.AbsentColumns
import FilterSql.Proofs.Filter.Assembly
import FilterSql.Proofs.Filter.Combination
import FilterSql.Proofs.Filter.ConditionNodes
import FilterSql.Proofs.Filter.ConditionValues
import FilterSql.Proofs.Filter.DateCodes
import FilterSql.Proofs.Filter.DayRanges
import FilterSql.Proofs.Filter.ErrorPlaces
import FilterSql.Proofs.Filter.FieldValue
import FilterSql.Proofs.Filter.Grammar
import FilterSql.Proofs.Filter.JoinKinds
import FilterSql.Proofs.Filter.JoinMerging
import FilterSql.Proofs.Filter.JoinNames
import FilterSql.Proofs.Filter.LiteralPatterns
import FilterSql.Proofs.Filter.Meaning
import FilterSql.Proofs.Filter.Mentions
import FilterSql.Proofs.Filter.NegatedOperators
import FilterSql.Proofs.Filter.OperatorText
import FilterSql.Proofs.Filter.PlainValues
import FilterSql.Proofs.Filter.RepeatedValues
import FilterSql.Proofs.Filter.Rows
import FilterSql.Proofs.Filter.Search
import FilterSql.Proofs.Filter.Tokens
import FilterSql.Proofs.Filter.TreeText
import FilterSql.Proofs.Filter.UniqueText
import FilterSql.Proofs.Filter.ViablePrefixes
import FilterSql.Proofs.Filter.WellTyped
import FilterSql.Proofs.Json.Documents
import FilterSql.Proofs.Json.Scalars
import FilterSql.Proofs.Number.Digits
import FilterSql.Proofs.Number.ExactValue
import FilterSql.Proofs.Postgres.BoundConditions
import FilterSql.Proofs.Postgres.Bytes
import FilterSql.Proofs.Postgres.ExactIntegers
import FilterSql.Proofs.Postgres.ReadBack
import FilterSql.Proofs.Query.AddedFilters
import FilterSql.Proofs.Query.Clauses
import FilterSql.Proofs.Query.CleanStatement
import FilterSql.Proofs.Query.FilterableFields
import FilterSql.Proofs.Query.JoinIdentity
import FilterSql.Proofs.Query.MalformedFilters
import FilterSql.Proofs.Query.Meaning
import FilterSql.Proofs.Query.NonemptyNames
import FilterSql.Proofs.Query.QualifiedColumns
import FilterSql.Proofs.Query.RejectedFilters
import FilterSql.Proofs.Query.RowCount
import FilterSql.Proofs.Query.Scoping
import FilterSql.Proofs.Sql.CleanName
import FilterSql.Proofs.Sql.ConditionText
import FilterSql.Proofs.Sql.Conditions
import FilterSql.Proofs.Sql.Lexeme
import FilterSql.Proofs.Sql.LikePattern
import FilterSql.Proofs.Sql.Nodes
import FilterSql.Proofs.Sql.Placeholders
import FilterSql.Proofs.Sql.Writing
import FilterSql.Proofs.Sql.Signs
import FilterSql.Proofs.Sql.StatementText
import FilterSql.Proofs.Text.Lowercase
import FilterSql.Proofs.Query.Paging
import FilterSql.Proofs.Schema.WireForm
import FilterSql.Proofs.Text.Runs
import FilterSql.Proofs.Filter.OddRuns
import FilterSql.Proofs.Filter.ByteWalk
import FilterSql.Proofs.Filter.TokenSpans
import FilterSql.Proofs.Filter.LongestOperator
import FilterSql.Proofs.Filter.CompactCodes
import FilterSql.Proofs.Row.RepeatedNames
import FilterSql.Proofs.Query.CollectedFilters
import FilterSql.Proofs.Sql.AddedClauses
import FilterSql.Proofs.Filter.ParserStacks
import FilterSql.Proofs.Sql.CanonicalName
import FilterSql.Proofs.Sql.QuotedText

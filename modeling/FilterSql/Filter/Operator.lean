/-
Operators at the front of a filter value.

A value such as `>=10` or `in:1,2` is an operator and its operand; one without an operator
is matched as its column's type suggests.  The word `null` asks for absent values.
-/
import FilterSql.Text.Basic

namespace FilterSql

/-- The operators of filter values. -/
inductive Operator
  | notEq
  | not
  | eq
  | gtEq
  | ltEq
  | gt
  | lt
  | startsWith
  | contains
  | endsWith
  | inList
  | notInList
  | between
  | notBetween
  | date
  | year
  | month
deriving DecidableEq, Repr

namespace Operator

/-- The operators in the order they are tried: one whose symbol begins another's comes
after it. -/
def all : List Operator :=
  [notEq, not, eq, gtEq, ltEq, gt, lt, startsWith, contains, endsWith, inList, notInList,
    between, notBetween, date, year, month]

/-- What an operator is written as. -/
def symbol : Operator → String
  | notEq => "!="
  | not => "!"
  | eq => "="
  | gtEq => ">="
  | ltEq => "<="
  | gt => ">"
  | lt => "<"
  | startsWith => "^"
  | contains => "~"
  | endsWith => "$"
  | inList => "in:"
  | notInList => "notin:"
  | between => "between:"
  | notBetween => "notbetween:"
  | date => "date:"
  | year => "year:"
  | month => "month:"

/-- The text after the operator's symbol, when it starts with that. -/
def after? (operator : Operator) (cs : List Char) : Option (List Char) :=
  let symbol := operator.symbol.toList
  if symbol.isPrefixOf cs then some (cs.drop symbol.length) else none

end Operator

/-- A filter value in its parts. -/
structure Leaf where
  operator : Option Operator
  operand : String
deriving DecidableEq, Repr

/-- Split a value at its operator; where nothing follows it, the whole is the operand. -/
def Leaf.ofText (raw : String) : Leaf :=
  let trimmed := Text.trim raw.toList
  let whole : Leaf := ⟨none, String.ofList trimmed⟩
  let found := Operator.all.findSome? fun operator =>
    (operator.after? trimmed).map fun rest => (operator, Text.trim rest)
  match found with
  | some (operator, rest) => if rest.isEmpty then whole else ⟨some operator, String.ofList rest⟩
  | none => whole

/-- A question for absent values. -/
inductive NullCheck
  | isNull
  | isNotNull
deriving DecidableEq, Repr

namespace NullCheck

/-- The words that ask for absent values. -/
def words : List (String × NullCheck) :=
  [("null", isNull), ("=null", isNull), ("!null", isNotNull), ("!=null", isNotNull)]

/-- The question that a filter value asks, in any case. -/
def ofText? (raw : String) : Option NullCheck :=
  words.lookup (String.ofList (Text.asciiLower (Text.trim raw.toList)))

/-- Whether a filter value asks for absent values or for present ones. -/
def isAsked (raw : String) : Bool :=
  (ofText? raw).isSome

end NullCheck

end FilterSql

/-
Conditions on one column.

Each operator has its own form of condition.  A value that does not fit, such as a word
for a number, an impossible date or an empty list, makes no condition; it is never an
error.
-/
import FilterSql.Filter.Operand
import FilterSql.Filter.Operator
import FilterSql.Sql.Expr
import FilterSql.Text.Lowercase

namespace FilterSql

/-- The column that a condition is about; one without a type takes any text. -/
structure Target where
  column : ColumnName
  type : Option ColumnType
deriving DecidableEq, Repr

/-- How a value without an operator is matched. -/
inductive DefaultMatch
  /-- As the type of the column suggests. -/
  | byType
  /-- By equality. -/
  | equality
deriving DecidableEq, Repr

namespace Target

/-- The column as an expression. -/
def expr (target : Target) : Expr :=
  .column target.column

/-- The column after its table, for messages. -/
def label (target : Target) : String :=
  match target.column.table with
  | some table => table ++ "." ++ target.column.column
  | none => target.column.column

/-- The comparison that an operator stands for. -/
def comparisonOp? : Operator → Option BinaryOp
  | .eq => some .eq
  | .notEq => some .notEq
  | .not => some .notEq
  | .gt => some .gt
  | .gtEq => some .gtEq
  | .lt => some .lt
  | .ltEq => some .ltEq
  | _ => none

/-- The column compared with a value. -/
def comparison? (target : Target) (operator : Operator) (operand : String) : Option Expr := do
  let op ← comparisonOp? operator
  let value ← Operand.scalar? target.type operand
  return .binary op target.expr (.value value)

/-- The pattern that an operator looks for. -/
def likePattern? (operand : String) : Operator → Option String
  | .startsWith => some (operand ++ "%")
  | .contains => some ("%" ++ operand ++ "%")
  | .endsWith => some ("%" ++ operand)
  | _ => none

/-- The column matched with a pattern: strings in any case, all else by its text. -/
def pattern? (target : Target) (operator : Operator) (operand : String) : Option Expr := do
  let pattern ← likePattern? operand operator
  if target.type = some .string then
    return .binary .like (.call "LOWER" [target.expr]) (.value (.string (Text.lowered pattern)))
  else
    return .binary .like (.castText target.expr) (.value (.string pattern))

/-- The entries between commas, without the blank ones. -/
def entries (operand : String) : List String :=
  let trimmed := (Text.pieces ',' operand.toList).map Text.trim
  (trimmed.filter (!·.isEmpty)).map String.ofList

/-- An operator or its negation, true for the negation. -/
def listNegation? : Operator → Option Bool
  | .inList => some false
  | .notInList => some true
  | _ => none

/-- The column among the values of a list; entries that do not fit are left out. -/
def list? (target : Target) (operator : Operator) (operand : String) : Option Expr := do
  let negated ← listNegation? operator
  let values := (entries operand).filterMap (Operand.scalar? target.type)
  if values.isEmpty then none
  else return .inList target.expr (values.map .value) negated

/-- A range or its negation, true for the negation. -/
def rangeNegation? : Operator → Option Bool
  | .between => some false
  | .notBetween => some true
  | _ => none

/-- The two ends of a range.  A temporal one runs from the start of a day to the last
second of another. -/
def bounds? (type : Option ColumnType) (low high : String) : Option (Value × Value) := do
  if type = some .temporal then
    let first ← Operand.compactDate? low
    let last ← Operand.compactDate? high
    return (.date first, .timestamp ⟨last, .endOfDay⟩)
  else
    let low ← Operand.scalar? type low
    let high ← Operand.scalar? type high
    return (low, high)

/-- The column between the first two values of a list. -/
def range? (target : Target) (operator : Operator) (operand : String) : Option Expr := do
  let negated ← rangeNegation? operator
  match entries operand with
  | low :: high :: _ => do
      let (low, high) ← bounds? target.type low high
      return .between target.expr (.value low) (.value high) negated
  | _ => none

/-- The parts of a date that an operator asks for, with their numbers. -/
def dateParts? (operand : String) : Operator → Option (List (DatePart × Int))
  | .date => do
      let date ← Operand.compactDate? operand
      return [(.year, date.year), (.month, date.month), (.day, date.day)]
  | .year => do
      let year ← Operand.compactYear? operand
      return [(.year, year)]
  | .month => do
      let (year, month) ← Operand.compactMonth? operand
      return [(.year, year), (.month, month)]
  | _ => none

/-- Parts of a temporal column compared with numbers. -/
def temporal? (target : Target) (operator : Operator) (operand : String) : Option Expr := do
  if target.type = some .temporal then
    let parts ← dateParts? operand operator
    Expr.conjunction? (parts.map fun (part, n) =>
      .binary .eq (.datePart part target.expr) (.value (.int (Int64.ofInt n))))
  else none

/-- A value without an operator: strings contain it, dates start with it, all else is
equal to it. -/
def plain? (target : Target) (operand : String) : Option Expr :=
  match target.type with
  | some .string => target.pattern? .contains operand
  | some .temporal => target.pattern? .startsWith operand
  | _ => target.comparison? .eq operand

/-- The condition of an operator and its operand. -/
def operation? (target : Target) (operator : Operator) (operand : String) : Option Expr :=
  match operator with
  | .notEq | .not | .eq | .gtEq | .ltEq | .gt | .lt => target.comparison? operator operand
  | .startsWith | .contains | .endsWith => target.pattern? operator operand
  | .inList | .notInList => target.list? operator operand
  | .between | .notBetween => target.range? operator operand
  | .date | .year | .month => target.temporal? operator operand

/-- The condition of a filter value in its parts. -/
def condition? (target : Target) (mode : DefaultMatch) (leaf : Leaf) : Option Expr :=
  if leaf.operand.isEmpty then none
  else
    match leaf.operator, mode with
    | some operator, _ => target.operation? operator leaf.operand
    | none, .byType => target.plain? leaf.operand
    | none, .equality => target.comparison? .eq leaf.operand

/-- The target that a cast describes: a blank cast gives no type, an unknown one no
target. -/
def ofCast? (column : ColumnName) (cast : String) : Option Target :=
  if Text.isBlankText cast then some ⟨column, none⟩
  else (ColumnType.ofCast? cast).map fun type => ⟨column, some type⟩

end Target

/-- The condition of a filter value on a column. -/
def ColumnName.condition? (column : ColumnName) (cast raw : String) (mode : DefaultMatch) :
    Option Expr := do
  let target ← Target.ofCast? column cast
  target.condition? mode (Leaf.ofText raw)

end FilterSql

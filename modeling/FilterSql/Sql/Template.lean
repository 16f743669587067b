/-
Statements as fixed text with values between.

Every expression and statement is first laid out as a template: pieces of text, which do
not depend on what the values are, and the values where they belong.  The text to send,
its parameters and the text with literals are three readings of the same template.
-/
import FilterSql.Sql.Dialect
import FilterSql.Sql.Select

namespace FilterSql

/-- A piece of a template. -/
inductive Piece
  | text (s : String)
  | value (v : Value)

/-- A statement or expression in pieces. -/
abbrev Template := List Piece

namespace Template

/-- The values, in order. -/
def params : Template → List Value
  | [] => []
  | .text _ :: pieces => params pieces
  | .value v :: pieces => v :: params pieces

/-- The text with a placeholder for each value, the first of them having this index. -/
def sqlFrom (dialect : Dialect) (index : Nat) : Template → String
  | [] => ""
  | .text s :: pieces => s ++ sqlFrom dialect index pieces
  | .value _ :: pieces => dialect.placeholder index ++ sqlFrom dialect (index + 1) pieces

/-- The text with a placeholder for each value. -/
def sql (dialect : Dialect) (template : Template) : String :=
  sqlFrom dialect 0 template

/-- The text with each value written as a literal. -/
def inlined : Template → String
  | [] => ""
  | .text s :: pieces => s ++ inlined pieces
  | .value v :: pieces => v.literal ++ inlined pieces

@[simp] theorem params_append (first second : Template) :
    params (first ++ second) = params first ++ params second := by
  induction first with
  | nil => rfl
  | cons piece pieces ih => cases piece <;> simp [params, ih]

@[simp] theorem inlined_append (first second : Template) :
    inlined (first ++ second) = inlined first ++ inlined second := by
  induction first with
  | nil => simp [inlined]
  | cons piece pieces ih => cases piece <;> simp [inlined, ih, String.append_assoc]

theorem sqlFrom_append (dialect : Dialect) (index : Nat) (first second : Template) :
    sqlFrom dialect index (first ++ second) =
      sqlFrom dialect index first ++ sqlFrom dialect (index + (params first).length) second := by
  induction first generalizing index with
  | nil => simp [sqlFrom, params]
  | cons piece pieces ih =>
      cases piece with
      | text s => simp [sqlFrom, params, ih, String.append_assoc]
      | value v =>
          simp [sqlFrom, params, ih, String.append_assoc, Nat.add_assoc, Nat.add_comm 1]

/-- Templates with commas between. -/
def commaSeparated : List Template → Template
  | [] => []
  | [template] => template
  | template :: templates => template ++ .text ", " :: commaSeparated templates

theorem mem_commaSeparated {templates : List Template} {piece : Piece}
    (hpiece : piece ∈ commaSeparated templates) :
    piece = .text ", " ∨ ∃ template ∈ templates, piece ∈ template := by
  induction templates with
  | nil => cases hpiece
  | cons template templates ih =>
      cases templates with
      | nil => exact Or.inr ⟨template, List.mem_cons_self, hpiece⟩
      | cons next rest =>
          simp only [commaSeparated, List.mem_append, List.mem_cons] at hpiece
          rcases hpiece with hpiece | rfl | hpiece
          · exact Or.inr ⟨template, List.mem_cons_self, hpiece⟩
          · exact Or.inl rfl
          · rcases ih hpiece with hcomma | ⟨other, hother, hpiece⟩
            · exact Or.inl hcomma
            · exact Or.inr ⟨other, List.mem_cons_of_mem _ hother, hpiece⟩

end Template

namespace BinaryOp

/-- The operator with blanks around it. -/
def text : BinaryOp → String
  | eq => " = "
  | notEq => " <> "
  | lt => " < "
  | ltEq => " <= "
  | gt => " > "
  | gtEq => " >= "
  | like => " LIKE "
  | and => " AND "
  | or => " OR "

end BinaryOp

variable (dialect : Dialect)

/-- What stands before a column or a star: the table and a dot, where there is a table. -/
def qualifierText : Option String → String
  | some table => dialect.quoteName table ++ "."
  | none => ""

/-- A column after its table. -/
def ColumnName.text (name : ColumnName) : String :=
  qualifierText dialect name.table ++ dialect.quoteName name.column

mutual

/-- The template of an expression. -/
def Expr.template : Expr → Template
  | .column name => [.text (name.text dialect)]
  | .star table => [.text (qualifierText dialect table ++ "*")]
  | .value v => [.value v]
  | .binary op left right =>
      .text "(" :: left.template ++ .text op.text :: right.template ++ [.text ")"]
  | .call function arguments =>
      .text (function ++ "(") :: Template.commaSeparated (Expr.templates arguments) ++ [.text ")"]
  | .callStar function => [.text (function ++ "(*)")]
  | .named expr asName => expr.template ++ [.text (" AS " ++ dialect.quoteName asName)]
  | .castText expr =>
      .text "CAST(" :: expr.template ++ [.text (" AS " ++ dialect.textType ++ ")")]
  | .inList expr items negated =>
      expr.template ++ .text (if negated then " NOT IN (" else " IN (") ::
        Template.commaSeparated (Expr.templates items) ++ [.text ")"]
  | .between expr low high negated =>
      expr.template ++ .text (if negated then " NOT BETWEEN " else " BETWEEN ") ::
        low.template ++ .text " AND " :: high.template
  | .isNull expr negated =>
      expr.template ++ [.text (if negated then " IS NOT NULL" else " IS NULL")]
  | .datePart part expr =>
      .text (dialect.aroundPart part).1 :: expr.template ++
        [.text (dialect.aroundPart part).2]

/-- The templates of several expressions. -/
def Expr.templates : List Expr → List Template
  | [] => []
  | expr :: exprs => expr.template :: Expr.templates exprs

end

theorem Expr.templates_eq_map (exprs : List Expr) :
    Expr.templates dialect exprs = exprs.map (Expr.template dialect) := by
  induction exprs with
  | nil => rfl
  | cons expr exprs ih => simp [templates, ih]

/-- A table after its database schema. -/
def TableName.text (table : TableName) : String :=
  qualifierText dialect table.schema ++ dialect.quoteName table.name

/-- A table with the name it goes by. -/
def Source.text (source : Source) : String :=
  source.table.text dialect ++
    match source.asName with
    | some name => " AS " ++ dialect.quoteName name
    | none => ""

/-- The table of a statement after its keyword. -/
def sourceTemplate : Option Source → Template
  | some source => [.text (" FROM " ++ source.text dialect)]
  | none => []

/-- The words of a join. -/
def JoinKind.text : JoinKind → String
  | inner => " INNER JOIN "
  | left => " LEFT JOIN "
  | right => " RIGHT JOIN "
  | full => " FULL OUTER JOIN "

/-- The template of a join. -/
def JoinClause.template (join : JoinClause) : Template :=
  .text (join.kind.text ++ join.source.text dialect ++ " ON ") :: join.on.template dialect

/-- The word of a direction. -/
def Direction.text : Direction → String
  | ascending => " ASC"
  | descending => " DESC"

/-- The template of an ordering. -/
def OrderItem.template (ordering : OrderItem) : Template :=
  ordering.expr.template dialect ++
    match ordering.direction with
    | some direction => [.text direction.text]
    | none => []

/-- A keyword and what follows it, nothing where there is no such clause. -/
def clauseTemplate (keyword : String) : Option Expr → Template
  | some expr => .text keyword :: expr.template dialect
  | none => []

/-- The orderings of a statement after their keyword. -/
def orderingsTemplate (orderings : List OrderItem) : Template :=
  if orderings.isEmpty then []
  else .text " ORDER BY " :: Template.commaSeparated (orderings.map (OrderItem.template dialect))

namespace Select

/-- The columns. -/
def columnsTemplate (select : Select) : Template :=
  Template.commaSeparated (Expr.templates dialect select.columns)

/-- The table, the joins and the condition: what decides which rows there are. -/
def rowsTemplate (select : Select) : Template :=
  sourceTemplate dialect select.source ++
    select.joins.flatMap (JoinClause.template dialect) ++
    clauseTemplate dialect " WHERE " select.condition

/-- The order and the limits. -/
def pageTemplate (select : Select) : Template :=
  orderingsTemplate dialect select.orderings ++
    clauseTemplate dialect " LIMIT " select.limit ++
    clauseTemplate dialect " OFFSET " select.offset

/-- The template of a statement. -/
def template (select : Select) : Template :=
  .text "SELECT " :: select.columnsTemplate dialect ++ select.rowsTemplate dialect ++
    select.pageTemplate dialect

end Select

end FilterSql

/-
Statements that are written at once.

A writer holds the text so far and the values that are bound in it, and every part of a
statement adds to both as it comes.  What is written that way are the pieces of the template,
one after another: the texts as they are, and for a value the next placeholder, or its
literal in a writer that binds nothing.
-/
import FilterSql.Proofs.Sql.Nodes
import FilterSql.Sql.Template

namespace FilterSql

/-- A statement up to some place. -/
structure Writer where
  text : String
  /-- The values bound so far, in the order of their placeholders. -/
  values : List Value
  /-- Values are written as literals, and none is bound. -/
  inlines : Bool

namespace Writer

/-- A writer that binds values, before anything is written. -/
def binding : Writer := ⟨"", [], false⟩

/-- A writer of literals, before anything is written. -/
def inlining : Writer := ⟨"", [], true⟩

/-- Write a text. -/
def push (text : String) (writer : Writer) : Writer :=
  { writer with text := writer.text ++ text }

/-- Write a value as a literal, or bind it and write the placeholder of the last value. -/
def addValue (dialect : Dialect) (value : Value) (writer : Writer) : Writer :=
  if writer.inlines then writer.push value.literal
  else
    let values := writer.values ++ [value]
    { writer with
      values := values
      text := writer.text ++ dialect.placeholder (values.length - 1) }

/-- Write several things with commas between. -/
def pushList : List (Writer → Writer) → Writer → Writer
  | [], writer => writer
  | [write], writer => write writer
  | write :: writes, writer => pushList writes ((write writer).push ", ")

/-- Write the quotes of a table and a dot, where there is a table. -/
def pushQualifier (dialect : Dialect) (table : Option String) (writer : Writer) : Writer :=
  match table with
  | some table => (writer.push (dialect.quoteName table)).push "."
  | none => writer

/-- Write the name that something goes by, where it goes by another. -/
def pushAsName (dialect : Dialect) (asName : Option String) (writer : Writer) : Writer :=
  match asName with
  | some name => (writer.push " AS ").push (dialect.quoteName name)
  | none => writer

/-- Write a keyword and what follows it, where there is such a clause. -/
def pushClause {α : Type} (keyword : String) (write : α → Writer → Writer) (clause : Option α)
    (writer : Writer) : Writer :=
  match clause with
  | some part => write part (writer.push keyword)
  | none => writer

end Writer

variable (dialect : Dialect)

mutual

/-- Write an expression. -/
def Expr.write : Expr → Writer → Writer
  | .column name, writer =>
      (writer.pushQualifier dialect name.table).push (dialect.quoteName name.column)
  | .star table, writer => (writer.pushQualifier dialect table).push "*"
  | .value v, writer => writer.addValue dialect v
  | .binary op left right, writer =>
      (right.write ((left.write (writer.push "(")).push op.text)).push ")"
  | .call function arguments, writer =>
      (Writer.pushList (Expr.writes arguments) ((writer.push function).push "(")).push ")"
  | .callStar function, writer => (((writer.push function).push "(").push "*").push ")"
  | .named expr asName, writer =>
      ((expr.write writer).push " AS ").push (dialect.quoteName asName)
  | .castText expr, writer =>
      (((expr.write (writer.push "CAST(")).push " AS ").push dialect.textType).push ")"
  | .inList expr items negated, writer =>
      (Writer.pushList (Expr.writes items)
        ((expr.write writer).push (if negated then " NOT IN (" else " IN ("))).push ")"
  | .between expr low high negated, writer =>
      high.write ((low.write
        ((expr.write writer).push (if negated then " NOT BETWEEN " else " BETWEEN "))).push
          " AND ")
  | .isNull expr negated, writer =>
      (expr.write writer).push (if negated then " IS NOT NULL" else " IS NULL")
  | .datePart part expr, writer =>
      (expr.write (writer.push (dialect.aroundPart part).1)).push (dialect.aroundPart part).2

/-- Write several expressions, each by itself. -/
def Expr.writes : List Expr → List (Writer → Writer)
  | [] => []
  | expr :: exprs => expr.write :: Expr.writes exprs

end

/-- Write a table. -/
def TableName.write (table : TableName) (writer : Writer) : Writer :=
  (writer.pushQualifier dialect table.schema).push (dialect.quoteName table.name)

/-- Write a table and the name it goes by. -/
def Source.write (source : Source) (writer : Writer) : Writer :=
  (source.table.write dialect writer).pushAsName dialect source.asName

/-- Write a join. -/
def JoinClause.write (join : JoinClause) (writer : Writer) : Writer :=
  join.on.write dialect ((join.source.write dialect (writer.push join.kind.text)).push " ON ")

/-- Write an ordering. -/
def OrderItem.write (ordering : OrderItem) (writer : Writer) : Writer :=
  match ordering.direction with
  | some direction => (ordering.expr.write dialect writer).push direction.text
  | none => ordering.expr.write dialect writer

/-- Write a statement, clause by clause. -/
def Select.write (select : Select) (writer : Writer) : Writer :=
  let listed := (writer.push "SELECT ").pushList (Expr.writes dialect select.columns)
  let sourced := listed.pushClause " FROM " (Source.write dialect) select.source
  let joined := select.joins.foldl (fun writer join => join.write dialect writer) sourced
  let kept := joined.pushClause " WHERE " (Expr.write dialect) select.condition
  let ordered :=
    if select.orderings.isEmpty then kept
    else (kept.push " ORDER BY ").pushList (select.orderings.map (OrderItem.write dialect))
  let limited := ordered.pushClause " LIMIT " (Expr.write dialect) select.limit
  limited.pushClause " OFFSET " (Expr.write dialect) select.offset

variable {dialect}

namespace Writer

variable (dialect) in
/-- Write the pieces of a template. -/
def add (template : Template) (writer : Writer) : Writer :=
  template.foldl (fun writer piece =>
    match piece with
    | .text s => writer.push s
    | .value v => writer.addValue dialect v) writer

@[simp] theorem push_empty (writer : Writer) : writer.push "" = writer := by
  simp [push]

@[simp] theorem push_push (first second : String) (writer : Writer) :
    (writer.push first).push second = writer.push (first ++ second) := by
  simp [push, String.append_assoc]

@[simp] theorem add_nil (writer : Writer) : writer.add dialect [] = writer := rfl

@[simp] theorem add_text (s : String) (pieces : Template) (writer : Writer) :
    writer.add dialect (.text s :: pieces) = (writer.push s).add dialect pieces := rfl

@[simp] theorem add_value (v : Value) (pieces : Template) (writer : Writer) :
    writer.add dialect (.value v :: pieces) = (writer.addValue dialect v).add dialect pieces := rfl

@[simp] theorem add_append (first second : Template) (writer : Writer) :
    writer.add dialect (first ++ second) = (writer.add dialect first).add dialect second :=
  List.foldl_append

@[simp] theorem pushQualifier_eq (table : Option String) (writer : Writer) :
    writer.pushQualifier dialect table = writer.push (qualifierText dialect table) := by
  cases table with
  | none => exact (push_empty writer).symm
  | some table => exact push_push _ _ writer

/-- Things that are written as their templates are, with commas between. -/
theorem pushList_map {α : Type} {write : α → Writer → Writer} {template : α → Template}
    {items : List α}
    (hitems : ∀ item ∈ items, ∀ writer, write item writer = writer.add dialect (template item))
    (writer : Writer) :
    writer.pushList (items.map write) =
      writer.add dialect (Template.commaSeparated (items.map template)) := by
  induction items generalizing writer with
  | nil => rfl
  | cons item items ih =>
      rw [List.forall_mem_cons] at hitems
      cases items with
      | nil => exact hitems.1 writer
      | cons next rest =>
          have hrest := ih hitems.2 ((write item writer).push ", ")
          rw [List.map_cons, List.map_cons] at hrest
          rw [List.map_cons, List.map_cons, List.map_cons, List.map_cons, pushList,
            Template.commaSeparated, hrest, hitems.1, add_append, add_text]
          all_goals simp

/-- A clause is written as its template is, when what follows its keyword is. -/
theorem pushClause_eq {write : Expr → Writer → Writer}
    (hwrite : ∀ expr writer, write expr writer = writer.add dialect (expr.template dialect))
    (keyword : String) (clause : Option Expr) (writer : Writer) :
    writer.pushClause keyword write clause =
      writer.add dialect (clauseTemplate dialect keyword clause) := by
  cases clause with
  | none => rfl
  | some expr => exact hwrite expr _

/-- Pieces in a writer that binds values: its text goes on with placeholders, and the values are
bound after those from before. -/
theorem add_of_binding (template : Template) (text : String) (values : List Value) :
    add dialect template ⟨text, values, false⟩ =
      ⟨text ++ template.sqlFrom dialect values.length, values ++ template.params, false⟩ := by
  induction template generalizing text values with
  | nil => simp [Template.sqlFrom, Template.params]
  | cons piece pieces ih =>
      cases piece with
      | text s => simp [push, ih, Template.sqlFrom, Template.params, String.append_assoc]
      | value v => simp [addValue, ih, Template.sqlFrom, Template.params, String.append_assoc]

/-- Pieces in a writer of literals: its text goes on with them, and nothing is bound. -/
theorem add_of_inlining (template : Template) (text : String) (values : List Value) :
    add dialect template ⟨text, values, true⟩ = ⟨text ++ template.inlined, values, true⟩ := by
  induction template generalizing text with
  | nil => simp [Template.inlined]
  | cons piece pieces ih =>
      cases piece with
      | text s => simp [push, ih, Template.inlined, String.append_assoc]
      | value v => simp [addValue, push, ih, Template.inlined, String.append_assoc]

end Writer

theorem Expr.writes_eq_map (exprs : List Expr) :
    Expr.writes dialect exprs = exprs.map (Expr.write dialect) := by
  induction exprs with
  | nil => rfl
  | cons expr exprs ih => rw [writes, ih, List.map_cons]

/-- An expression is written as the pieces of its template, whatever stands before it. -/
theorem Expr.write_eq (expr : Expr) (writer : Writer) :
    expr.write dialect writer = writer.add dialect (expr.template dialect) := by
  induction expr generalizing writer with
  | column name => simp [write, template, ColumnName.text]
  | star table => simp [write, template]
  | value v => rfl
  | binary op left right ihleft ihright => simp [write, template, ihleft, ihright]
  | call function arguments ih =>
      simp [write, template, writes_eq_map, templates_eq_map, Writer.pushList_map ih]
  | callStar function => simp [write, template, String.append_assoc]
  | named expr asName ih => simp [write, template, ih]
  | castText expr ih => simp [write, template, ih, String.append_assoc]
  | inList expr items negated ih ihitems =>
      simp [write, template, ih, writes_eq_map, templates_eq_map, Writer.pushList_map ihitems]
  | between expr low high negated ih ihlow ihhigh =>
      simp [write, template, ih, ihlow, ihhigh]
  | isNull expr negated ih => simp [write, template, ih]
  | datePart part expr ih => simp [write, template, ih]

theorem Source.write_eq (source : Source) (writer : Writer) :
    source.write dialect writer = writer.push (source.text dialect) := by
  obtain ⟨table, asName⟩ := source
  cases asName <;>
    simp [write, text, TableName.write, TableName.text, Writer.pushAsName, String.append_assoc]

theorem JoinClause.write_eq (join : JoinClause) (writer : Writer) :
    join.write dialect writer = writer.add dialect (join.template dialect) := by
  simp [write, template, Source.write_eq, Expr.write_eq, String.append_assoc]

/-- Joins are written one after another. -/
theorem JoinClause.foldl_write_eq (joins : List JoinClause) (writer : Writer) :
    joins.foldl (fun writer join => join.write dialect writer) writer =
      writer.add dialect (joins.flatMap (JoinClause.template dialect)) := by
  induction joins generalizing writer with
  | nil => rfl
  | cons join joins ih =>
      rw [List.foldl_cons, ih, write_eq, List.flatMap_cons, Writer.add_append]

theorem OrderItem.write_eq (ordering : OrderItem) (writer : Writer) :
    ordering.write dialect writer = writer.add dialect (ordering.template dialect) := by
  obtain ⟨expr, direction⟩ := ordering
  cases direction <;> simp [write, template, Expr.write_eq]

/-- A statement is written as the pieces of its template, whatever stands before it. -/
theorem Select.write_eq (select : Select) (writer : Writer) :
    select.write dialect writer = writer.add dialect (select.template dialect) := by
  have hcolumns : ∀ writer : Writer, writer.pushList (Expr.writes dialect select.columns) =
      writer.add dialect (select.columnsTemplate dialect) := by
    intro writer
    rw [Expr.writes_eq_map, columnsTemplate, Expr.templates_eq_map]
    exact Writer.pushList_map (fun expr _ => expr.write_eq) writer
  have hsource : ∀ writer : Writer,
      writer.pushClause " FROM " (Source.write dialect) select.source =
        writer.add dialect (sourceTemplate dialect select.source) := by
    intro writer
    cases select.source <;> simp [Writer.pushClause, sourceTemplate, Source.write_eq]
  have horderings : ∀ writer : Writer,
      (if select.orderings.isEmpty then writer
        else (writer.push " ORDER BY ").pushList (select.orderings.map (OrderItem.write dialect))) =
        writer.add dialect (orderingsTemplate dialect select.orderings) := by
    intro writer
    rw [orderingsTemplate]
    split
    next => rfl
    next =>
      rw [Writer.add_text]
      exact Writer.pushList_map (fun ordering _ => ordering.write_eq) _
  rw [write, template, rowsTemplate, pageTemplate]
  simp only [hcolumns, hsource, JoinClause.foldl_write_eq, horderings,
    Writer.pushClause_eq Expr.write_eq, Writer.add_append, Writer.add_text, List.cons_append]

/-- What is written from the start is the text of the template with its values, or its text with
literals. -/
theorem Writer.written (dialect : Dialect) :
    (∀ expr : Expr,
      expr.write dialect binding =
        ⟨(expr.template dialect).sql dialect, (expr.template dialect).params, false⟩ ∧
      expr.write dialect inlining = ⟨(expr.template dialect).inlined, [], true⟩) ∧
    ∀ select : Select,
      select.write dialect binding =
        ⟨(select.template dialect).sql dialect, (select.template dialect).params, false⟩ ∧
      select.write dialect inlining = ⟨(select.template dialect).inlined, [], true⟩ := by
  have hadd : ∀ template : Template,
      add dialect template binding = ⟨template.sql dialect, template.params, false⟩ ∧
        add dialect template inlining = ⟨template.inlined, [], true⟩ := by
    intro template
    rw [binding, inlining, add_of_binding, add_of_inlining]
    simp [Template.sql]
  constructor
  · intro expr
    rw [Expr.write_eq, Expr.write_eq]
    exact hadd _
  · intro select
    rw [Select.write_eq, Select.write_eq]
    exact hadd _

end FilterSql

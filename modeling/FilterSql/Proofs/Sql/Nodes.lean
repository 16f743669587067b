/-
Expressions inside expressions.

The nodes of an expression are the expression itself and all that it is made of, in the
order they are written.  What an expression mentions, its names and its values, is read
off its nodes one by one.
-/
import FilterSql.Sql.Select

namespace FilterSql

namespace Expr

/-- Induction over expressions; the hypotheses about a list are about each of its members. -/
@[elab_as_elim, induction_eliminator]
theorem induction {motive : Expr → Prop}
    (column : ∀ name, motive (column name))
    (star : ∀ table, motive (star table))
    (value : ∀ v, motive (value v))
    (binary : ∀ op left right, motive left → motive right → motive (binary op left right))
    (call : ∀ function arguments, (∀ argument ∈ arguments, motive argument) →
      motive (call function arguments))
    (callStar : ∀ function, motive (callStar function))
    (named : ∀ expr asName, motive expr → motive (named expr asName))
    (castText : ∀ expr, motive expr → motive (castText expr))
    (inList : ∀ expr items negated, motive expr → (∀ item ∈ items, motive item) →
      motive (inList expr items negated))
    (between : ∀ expr low high negated, motive expr → motive low → motive high →
      motive (between expr low high negated))
    (isNull : ∀ expr negated, motive expr → motive (isNull expr negated))
    (datePart : ∀ part expr, motive expr → motive (datePart part expr))
    (expr : Expr) : motive expr := by
  refine @Expr.rec motive (fun exprs => ∀ e ∈ exprs, motive e)
    column star value binary call callStar named castText inList between isNull datePart
    ?_ ?_ expr
  · intro e he
    cases he
  · intro head tail hhead htail e he
    rcases List.mem_cons.mp he with rfl | he
    · exact hhead
    · exact htail e he

mutual

/-- An expression and all expressions inside it. -/
def nodes : Expr → List Expr
  | column name => [column name]
  | star table => [star table]
  | value v => [value v]
  | binary op left right => binary op left right :: (left.nodes ++ right.nodes)
  | call function arguments => call function arguments :: nodesOf arguments
  | callStar function => [callStar function]
  | named expr asName => named expr asName :: expr.nodes
  | castText expr => castText expr :: expr.nodes
  | inList expr items negated => inList expr items negated :: (expr.nodes ++ nodesOf items)
  | between expr low high negated =>
      between expr low high negated :: (expr.nodes ++ low.nodes ++ high.nodes)
  | isNull expr negated => isNull expr negated :: expr.nodes
  | datePart part expr => datePart part expr :: expr.nodes

/-- The nodes of several expressions. -/
def nodesOf : List Expr → List Expr
  | [] => []
  | expr :: exprs => expr.nodes ++ nodesOf exprs

end

attribute [simp] nodes nodesOf

@[simp] theorem nodesOf_eq_flatMap (exprs : List Expr) : nodesOf exprs = exprs.flatMap nodes := by
  induction exprs with
  | nil => rfl
  | cons expr exprs ih => simp [nodesOf, ih]

/-- Every node of an expression has a property. -/
def Every (P : Expr → Prop) (expr : Expr) : Prop :=
  ∀ node ∈ expr.nodes, P node

section Every

variable {P : Expr → Prop}

theorem forall_mem_nodesOf {exprs : List Expr} :
    (∀ node ∈ nodesOf exprs, P node) ↔ ∀ expr ∈ exprs, expr.Every P := by
  rw [nodesOf_eq_flatMap]
  constructor
  · intro h expr hexpr node hnode
    exact h node (List.mem_flatMap_of_mem hexpr hnode)
  · intro h node hnode
    obtain ⟨expr, hexpr, hnode⟩ := List.mem_flatMap.mp hnode
    exact h expr hexpr node hnode

@[simp] theorem every_column (name : ColumnName) : (column name).Every P ↔ P (column name) := by
  simp [Every, nodes]

@[simp] theorem every_star (table : Option String) : (star table).Every P ↔ P (star table) := by
  simp [Every, nodes]

@[simp] theorem every_value (v : Value) : (value v).Every P ↔ P (value v) := by
  simp [Every, nodes]

@[simp] theorem every_binary (op : BinaryOp) (left right : Expr) :
    (binary op left right).Every P ↔
      P (binary op left right) ∧ left.Every P ∧ right.Every P := by
  simp [Every, nodes, or_imp, forall_and]

@[simp] theorem every_call (function : String) (arguments : List Expr) :
    (call function arguments).Every P ↔
      P (call function arguments) ∧ ∀ argument ∈ arguments, argument.Every P := by
  rw [← forall_mem_nodesOf]
  simp [Every, nodes, -nodesOf_eq_flatMap]

@[simp] theorem every_callStar (function : String) :
    (callStar function).Every P ↔ P (callStar function) := by
  simp [Every, nodes]

@[simp] theorem every_named (expr : Expr) (asName : String) :
    (named expr asName).Every P ↔ P (named expr asName) ∧ expr.Every P := by
  simp [Every, nodes]

@[simp] theorem every_castText (expr : Expr) :
    (castText expr).Every P ↔ P (castText expr) ∧ expr.Every P := by
  simp [Every, nodes]

@[simp] theorem every_inList (expr : Expr) (items : List Expr) (negated : Bool) :
    (inList expr items negated).Every P ↔
      P (inList expr items negated) ∧ expr.Every P ∧ ∀ item ∈ items, item.Every P := by
  rw [← forall_mem_nodesOf]
  simp [Every, nodes, or_imp, forall_and, -nodesOf_eq_flatMap]

@[simp] theorem every_between (expr low high : Expr) (negated : Bool) :
    (between expr low high negated).Every P ↔
      P (between expr low high negated) ∧ expr.Every P ∧ low.Every P ∧ high.Every P := by
  simp [Every, nodes, or_imp, forall_and]

@[simp] theorem every_isNull (expr : Expr) (negated : Bool) :
    (isNull expr negated).Every P ↔ P (isNull expr negated) ∧ expr.Every P := by
  simp [Every, nodes]

@[simp] theorem every_datePart (part : DatePart) (expr : Expr) :
    (datePart part expr).Every P ↔ P (datePart part expr) ∧ expr.Every P := by
  simp [Every, nodes]

theorem Every.imp {Q : Expr → Prop} {expr : Expr} (hexpr : expr.Every P)
    (himp : ∀ node, P node → Q node) : expr.Every Q :=
  fun node hnode => himp node (hexpr node hnode)

end Every

/-- The value that a node is. -/
def value? : Expr → Option Value
  | value v => some v
  | _ => none

/-- The values of an expression, in the order they are written. -/
def values (expr : Expr) : List Value :=
  expr.nodes.filterMap value?

theorem values_binary (op : BinaryOp) (left right : Expr) :
    (binary op left right).values = left.values ++ right.values := by
  simp [values, nodes, value?, List.filterMap_cons]

theorem values_call (function : String) (arguments : List Expr) :
    (call function arguments).values = arguments.flatMap values := by
  simp only [values, nodes, nodesOf_eq_flatMap, value?, List.filterMap_cons,
    List.filterMap_flatMap]
  rfl

theorem values_inList (expr : Expr) (items : List Expr) (negated : Bool) :
    (inList expr items negated).values = expr.values ++ items.flatMap values := by
  simp only [values, nodes, nodesOf_eq_flatMap, value?, List.filterMap_cons,
    List.filterMap_append, List.filterMap_flatMap]
  rfl

theorem values_between (expr low high : Expr) (negated : Bool) :
    (between expr low high negated).values = expr.values ++ low.values ++ high.values := by
  simp [values, nodes, value?, List.filterMap_cons]

/-- The names that a node mentions by itself. -/
def ownNames : Expr → List String
  | column name => name.table.toList ++ [name.column]
  | star table => table.toList
  | named _ asName => [asName]
  | _ => []

/-- The names of tables, columns and results in an expression. -/
def names (expr : Expr) : List String :=
  expr.nodes.flatMap ownNames

/-- The function that a node calls. -/
def function? : Expr → Option String
  | call function _ => some function
  | callStar function => some function
  | _ => none

end Expr

namespace Source

/-- The names of a table, of its database schema and the one it goes by. -/
def names (source : Source) : List String :=
  source.table.schema.toList ++ source.table.name :: source.asName.toList

end Source

namespace Select

/-- The expressions of a statement, in the order they are written. -/
def exprs (select : Select) : List Expr :=
  select.columns ++ select.joins.map JoinClause.on ++ select.condition.toList ++
    select.orderings.map OrderItem.expr ++ select.limit.toList ++ select.offset.toList

/-- The tables of a statement. -/
def sources (select : Select) : List Source :=
  select.source.toList ++ select.joins.map JoinClause.source

/-- The values of a statement, in the order they are written. -/
def values (select : Select) : List Value :=
  select.exprs.flatMap Expr.values

/-- All names of tables, columns and results in a statement. -/
def names (select : Select) : List String :=
  select.sources.flatMap Source.names ++ select.exprs.flatMap Expr.names

/-- The names of a statement are those of its tables, and those of the nodes of its expressions. -/
theorem forall_mem_names_iff {P : String → Prop} {select : Select} :
    (∀ name ∈ select.names, P name) ↔
      (∀ source ∈ select.sources, ∀ name ∈ source.names, P name) ∧
      ∀ expr ∈ select.exprs, expr.Every fun node => ∀ name ∈ node.ownNames, P name := by
  have hexpr : ∀ expr : Expr, (∀ name ∈ expr.names, P name) ↔
      expr.Every fun node => ∀ name ∈ node.ownNames, P name := by
    intro expr
    rw [Expr.names, List.forall_mem_flatMap]
    rfl
  rw [names, List.forall_mem_append, List.forall_mem_flatMap, List.forall_mem_flatMap]
  simp only [hexpr]

end Select

end FilterSql

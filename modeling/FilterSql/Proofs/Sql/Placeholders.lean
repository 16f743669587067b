/-
Texts and values of a statement in step.

What stands between the values of a statement depends on the statement with its values
blotted out and on the dialect alone.  The text to send, the parameters and the text with
literals all put something between the same texts, in the same order.
-/
import Mathlib.Data.List.Basic
import FilterSql.Proofs.Sql.Writing

namespace FilterSql

/-- Texts with one of a list of others after each, as long as there are any. -/
def interleave : List String → List String → String
  | [], _ => ""
  | text :: texts, [] => text ++ interleave texts []
  | text :: texts, other :: others => text ++ other ++ interleave texts others

namespace Template

/-- The texts before, between and after the values. -/
def texts : Template → List String
  | [] => [""]
  | .text s :: pieces =>
      match texts pieces with
      | [] => [s]
      | first :: rest => (s ++ first) :: rest
  | .value _ :: pieces => "" :: texts pieces

/-- The template with every value blotted out. -/
def erased (template : Template) : Template :=
  template.map fun
    | .text s => .text s
    | .value _ => .value .null

@[simp] theorem erased_nil : erased [] = [] := rfl

@[simp] theorem erased_text (s : String) (pieces : Template) :
    erased (.text s :: pieces) = .text s :: erased pieces := rfl

@[simp] theorem erased_value (v : Value) (pieces : Template) :
    erased (.value v :: pieces) = .value .null :: erased pieces := rfl

@[simp] theorem erased_append (first second : Template) :
    erased (first ++ second) = erased first ++ erased second := by
  simp [erased]

theorem erased_commaSeparated (templates : List Template) :
    erased (commaSeparated templates) = commaSeparated (templates.map erased) := by
  fun_induction commaSeparated templates with
  | case1 => rfl
  | case2 => rfl
  | case3 template templates hne ih =>
      cases templates with
      | nil => exact absurd rfl hne
      | cons next rest => simpa [commaSeparated] using ih

theorem params_commaSeparated (templates : List Template) :
    params (commaSeparated templates) = templates.flatMap params := by
  fun_induction commaSeparated templates with
  | case1 => rfl
  | case2 => simp
  | case3 template templates hne ih => simp [params, ih]

theorem texts_erased (template : Template) : texts template.erased = texts template := by
  induction template with
  | nil => rfl
  | cons piece pieces ih => cases piece <;> simp [texts, ih]

theorem length_texts (template : Template) :
    template.texts.length = template.params.length + 1 := by
  induction template with
  | nil => rfl
  | cons piece pieces ih =>
      cases piece with
      | value v => simp [texts, params, ih]
      | text s =>
          -- A text runs into the first text of the rest, and there always is one.
          cases htexts : texts pieces with
          | nil => simp [htexts] at ih
          | cons first rest => simpa [texts, params, htexts] using ih

theorem interleave_texts_text (s : String) (pieces : Template) (others : List String) :
    interleave (texts (.text s :: pieces)) others = s ++ interleave (texts pieces) others := by
  cases htexts : texts pieces with
  | nil =>
      have hlength := length_texts pieces
      simp [htexts] at hlength
  | cons first rest => cases others <;> simp [texts, htexts, interleave, String.append_assoc]

theorem sqlFrom_eq_interleave (dialect : Dialect) (index : Nat) (template : Template) :
    template.sqlFrom dialect index =
      interleave template.texts
        ((List.range' index template.params.length).map dialect.placeholder) := by
  induction template generalizing index with
  | nil => rfl
  | cons piece pieces ih =>
      cases piece with
      | text s => rw [interleave_texts_text, sqlFrom, ih, params]
      | value v => simp [texts, params, sqlFrom, interleave, List.range'_succ, ih]

theorem inlined_eq_interleave (template : Template) :
    template.inlined = interleave template.texts (template.params.map Value.literal) := by
  induction template with
  | nil => rfl
  | cons piece pieces ih =>
      cases piece with
      | text s => rw [interleave_texts_text, inlined, ih, params]
      | value v => simp [texts, params, inlined, interleave, ih]

/-- The three readings of a template put something of each value between the same texts. -/
structure InStep (dialect : Dialect) (template : Template) (texts : List String)
    (values : List Value) : Prop where
  length_eq : texts.length = values.length + 1
  params_eq : template.params = values
  sql_eq : template.sql dialect =
    interleave texts ((List.range values.length).map dialect.placeholder)
  inlined_eq : template.inlined = interleave texts (values.map Value.literal)

theorem inStep (dialect : Dialect) (template : Template) :
    template.InStep dialect template.texts template.params where
  length_eq := template.length_texts
  params_eq := rfl
  sql_eq := by rw [sql, sqlFrom_eq_interleave, List.range_eq_range']
  inlined_eq := template.inlined_eq_interleave

theorem InStep.sql_congr {dialect : Dialect} {first second : Template} {texts : List String}
    {firstValues secondValues : List Value} (hfirst : first.InStep dialect texts firstValues)
    (hsecond : second.InStep dialect texts secondValues) :
    first.sql dialect = second.sql dialect := by
  have hlength : firstValues.length = secondValues.length := by
    have := hfirst.length_eq
    have := hsecond.length_eq
    omega
  rw [hfirst.sql_eq, hsecond.sql_eq, hlength]

end Template

namespace Expr

mutual

/-- The expression with every value blotted out. -/
def erased : Expr → Expr
  | column name => column name
  | star table => star table
  | value _ => value .null
  | binary op left right => binary op left.erased right.erased
  | call function arguments => call function (allErased arguments)
  | callStar function => callStar function
  | named expr asName => named expr.erased asName
  | castText expr => castText expr.erased
  | inList expr items negated => inList expr.erased (allErased items) negated
  | between expr low high negated => between expr.erased low.erased high.erased negated
  | isNull expr negated => isNull expr.erased negated
  | datePart part expr => datePart part expr.erased

/-- The expressions with every value blotted out. -/
def allErased : List Expr → List Expr
  | [] => []
  | expr :: exprs => expr.erased :: allErased exprs

end

theorem allErased_eq_map (exprs : List Expr) : allErased exprs = exprs.map erased := by
  induction exprs with
  | nil => rfl
  | cons expr exprs ih => simp [allErased, ih]

/-- The values of a template are those of its expression, in the same order. -/
theorem params_template (dialect : Dialect) (expr : Expr) :
    (expr.template dialect).params = expr.values := by
  have hitems : ∀ items : List Expr,
      (∀ item ∈ items, (item.template dialect).params = item.values) →
      (Template.commaSeparated (templates dialect items)).params = items.flatMap values := by
    intro items ih
    rw [Template.params_commaSeparated, templates_eq_map, List.flatMap_map]
    exact List.flatMap_congr ih
  induction expr with
  | column | star | value | callStar => rfl
  | binary op left right ihleft ihright =>
      simp [template, Template.params, values_binary, ihleft, ihright]
  | call function arguments ih =>
      simp [template, Template.params, values_call, hitems arguments ih]
  | inList expr items negated ih ihitems =>
      simp [template, Template.params, values_inList, ih, hitems items ihitems]
  | between expr low high negated ih ihlow ihhigh =>
      simp [template, Template.params, values_between, ih, ihlow, ihhigh]
  | named expr _ ih | castText expr ih | isNull expr _ ih | datePart _ expr ih =>
      simpa [template, Template.params, values, nodes, value?, List.filterMap_cons] using ih

/-- Blotting out the values of an expression blots out those of its template, and no more. -/
theorem template_erased (dialect : Dialect) (expr : Expr) :
    expr.erased.template dialect = (expr.template dialect).erased := by
  have hitems : ∀ items : List Expr,
      (∀ item ∈ items, item.erased.template dialect = (item.template dialect).erased) →
      Template.commaSeparated (templates dialect (allErased items)) =
        (Template.commaSeparated (templates dialect items)).erased := by
    intro items ih
    rw [Template.erased_commaSeparated, allErased_eq_map, templates_eq_map, templates_eq_map,
      List.map_map, List.map_map]
    exact congrArg _ (List.map_congr_left ih)
  induction expr with
  | column | star | value | callStar => rfl
  | binary op left right ihleft ihright => simp [erased, template, ihleft, ihright]
  | call function arguments ih => simp [erased, template, hitems arguments ih]
  | inList expr items negated ih ihitems => simp [erased, template, ih, hitems items ihitems]
  | between expr low high negated ih ihlow ihhigh =>
      simp [erased, template, ih, ihlow, ihhigh]
  | named expr _ ih | castText expr ih | isNull expr _ ih | datePart _ expr ih =>
      simp [erased, template, ih]

end Expr

/-- The join with every value of its condition blotted out. -/
def JoinClause.erased (join : JoinClause) : JoinClause :=
  { join with on := join.on.erased }

/-- The ordering with every value blotted out. -/
def OrderItem.erased (ordering : OrderItem) : OrderItem :=
  { ordering with expr := ordering.expr.erased }

namespace Select

/-- The statement with every value blotted out. -/
def erased (select : Select) : Select :=
  { columns := select.columns.map Expr.erased
    source := select.source
    joins := select.joins.map JoinClause.erased
    condition := select.condition.map Expr.erased
    orderings := select.orderings.map OrderItem.erased
    limit := select.limit.map Expr.erased
    offset := select.offset.map Expr.erased }

variable (dialect : Dialect)

theorem params_clauseTemplate (keyword : String) (expr : Option Expr) :
    (clauseTemplate dialect keyword expr).params = expr.toList.flatMap Expr.values := by
  cases expr with
  | none => rfl
  | some expr => simp [clauseTemplate, Template.params, Expr.params_template]

theorem params_columnsTemplate (select : Select) :
    (select.columnsTemplate dialect).params = select.columns.flatMap Expr.values := by
  rw [columnsTemplate, Template.params_commaSeparated, Expr.templates_eq_map, List.flatMap_map]
  exact List.flatMap_congr fun expr _ => expr.params_template dialect

theorem params_rowsTemplate (select : Select) :
    (select.rowsTemplate dialect).params =
      (select.joins.map JoinClause.on ++ select.condition.toList).flatMap Expr.values := by
  have hsource : (sourceTemplate dialect select.source).params = [] := by
    cases select.source <;> rfl
  have hjoins : ∀ joins : List JoinClause,
      Template.params (joins.flatMap (JoinClause.template dialect)) =
        (joins.map JoinClause.on).flatMap Expr.values := by
    intro joins
    induction joins with
    | nil => rfl
    | cons join joins ih =>
        simpa [JoinClause.template, Template.params, Expr.params_template] using ih
  simp [rowsTemplate, hsource, hjoins, params_clauseTemplate]

theorem params_orderingsTemplate (orderings : List OrderItem) :
    (orderingsTemplate dialect orderings).params =
      (orderings.map OrderItem.expr).flatMap Expr.values := by
  have hitem : ∀ ordering : OrderItem,
      (ordering.template dialect).params = ordering.expr.values := by
    intro ordering
    rcases ordering with ⟨expr, _ | direction⟩ <;>
      simp [OrderItem.template, Template.params, Expr.params_template]
  rw [orderingsTemplate]
  split
  next hempty => simp [List.isEmpty_iff.mp hempty, Template.params]
  next => simp [Template.params, Template.params_commaSeparated, List.flatMap_map, hitem]

/-- The values of a template are those of its statement, in the same order. -/
theorem params_template (select : Select) : (select.template dialect).params = select.values := by
  simp [template, Template.params, params_columnsTemplate, params_rowsTemplate, pageTemplate,
    params_orderingsTemplate, params_clauseTemplate, values, exprs]

theorem clauseTemplate_erased (keyword : String) (expr : Option Expr) :
    clauseTemplate dialect keyword (expr.map Expr.erased) =
      (clauseTemplate dialect keyword expr).erased := by
  cases expr with
  | none => rfl
  | some expr => simp [clauseTemplate, Expr.template_erased]

theorem columnsTemplate_erased (select : Select) :
    select.erased.columnsTemplate dialect = (select.columnsTemplate dialect).erased := by
  have hcolumns : Expr.template dialect ∘ Expr.erased = Template.erased ∘ Expr.template dialect :=
    funext (Expr.template_erased dialect)
  simp [columnsTemplate, erased, Template.erased_commaSeparated, Expr.templates_eq_map, hcolumns]

theorem rowsTemplate_erased (select : Select) :
    select.erased.rowsTemplate dialect = (select.rowsTemplate dialect).erased := by
  have hsource : (sourceTemplate dialect select.source).erased =
      sourceTemplate dialect select.source := by
    cases select.source <;> rfl
  have hjoins : ∀ joins : List JoinClause,
      (joins.map JoinClause.erased).flatMap (JoinClause.template dialect) =
        Template.erased (joins.flatMap (JoinClause.template dialect)) := by
    intro joins
    induction joins with
    | nil => rfl
    | cons join joins ih =>
        simpa [JoinClause.template, JoinClause.erased, Expr.template_erased] using ih
  simp [rowsTemplate, erased, hsource, hjoins, clauseTemplate_erased]

theorem orderingsTemplate_erased (orderings : List OrderItem) :
    orderingsTemplate dialect (orderings.map OrderItem.erased) =
      (orderingsTemplate dialect orderings).erased := by
  have hitem : OrderItem.template dialect ∘ OrderItem.erased =
      Template.erased ∘ OrderItem.template dialect := by
    funext ordering
    rcases ordering with ⟨expr, _ | direction⟩ <;>
      simp [OrderItem.template, OrderItem.erased, Expr.template_erased]
  cases orderings with
  | nil => rfl
  | cons ordering orderings =>
      rw [orderingsTemplate, orderingsTemplate, List.map_map, hitem]
      simp [Template.erased_commaSeparated]

/-- Blotting out the values of a statement blots out those of its template, and no more. -/
theorem template_erased (select : Select) :
    select.erased.template dialect = (select.template dialect).erased := by
  have horderings := orderingsTemplate_erased dialect select.orderings
  have hlimit := clauseTemplate_erased dialect " LIMIT " select.limit
  have hoffset := clauseTemplate_erased dialect " OFFSET " select.offset
  have hpage : select.erased.pageTemplate dialect = (select.pageTemplate dialect).erased := by
    simp [pageTemplate, erased, horderings, hlimit, hoffset]
  simp [template, columnsTemplate_erased, rowsTemplate_erased, hpage]

end Select

/-- What stands between the values of an expression or a statement depends on it with its values
blotted out and on the dialect; the parameters are its values in both dialects.  Both are what is
written when it is gone through once, with values bound or with literals. -/
theorem Template.exists_inStep :
    ∃ (exprTexts : Dialect → Expr → List String) (selectTexts : Dialect → Select → List String),
      (∀ (dialect : Dialect) (expr : Expr), (expr.template dialect).InStep dialect
        (exprTexts dialect expr.erased) expr.values) ∧
      (∀ (dialect : Dialect) (select : Select), (select.template dialect).InStep dialect
        (selectTexts dialect select.erased) select.values) ∧
      (∀ (dialect : Dialect) (first second : Expr), first.erased = second.erased →
        (first.template dialect).sql dialect = (second.template dialect).sql dialect) ∧
      (∀ (dialect : Dialect) (first second : Select), first.erased = second.erased →
        (first.template dialect).sql dialect = (second.template dialect).sql dialect) ∧
      (∀ (dialect : Dialect) (expr : Expr),
        expr.write dialect .binding = ⟨(expr.template dialect).sql dialect, expr.values, false⟩ ∧
        expr.write dialect .inlining = ⟨(expr.template dialect).inlined, [], true⟩) ∧
      ∀ (dialect : Dialect) (select : Select),
        select.write dialect .binding =
          ⟨(select.template dialect).sql dialect, select.values, false⟩ ∧
        select.write dialect .inlining = ⟨(select.template dialect).inlined, [], true⟩ := by
  have hexpr : ∀ (dialect : Dialect) (expr : Expr), (expr.template dialect).InStep dialect
      (expr.erased.template dialect).texts expr.values := by
    intro dialect expr
    rw [Expr.template_erased, texts_erased, ← Expr.params_template dialect]
    exact inStep dialect _
  have hselect : ∀ (dialect : Dialect) (select : Select), (select.template dialect).InStep dialect
      (select.erased.template dialect).texts select.values := by
    intro dialect select
    rw [Select.template_erased, texts_erased, ← Select.params_template dialect]
    exact inStep dialect _
  refine ⟨fun dialect expr => (expr.template dialect).texts,
    fun dialect select => (select.template dialect).texts, hexpr, hselect, ?_, ?_, ?_, ?_⟩
  · intro dialect first second herased
    have hfirst := hexpr dialect first
    rw [herased] at hfirst
    exact hfirst.sql_congr (hexpr dialect second)
  · intro dialect first second herased
    have hfirst := hselect dialect first
    rw [herased] at hfirst
    exact hfirst.sql_congr (hselect dialect second)
  · intro dialect expr
    rw [← Expr.params_template dialect]
    exact (Writer.written dialect).1 expr
  · intro dialect select
    rw [← Select.params_template dialect]
    exact (Writer.written dialect).2 select

end FilterSql

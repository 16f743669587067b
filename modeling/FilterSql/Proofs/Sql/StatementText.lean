/-
Statements of clean names are written with the fixed stock alone.

Every text of a template, whether of an expression or of a whole statement, consists of
allowed pieces as soon as the names are clean and the functions are known.
-/
import FilterSql.Proofs.Sql.Lexeme
import FilterSql.Proofs.Sql.Nodes

namespace FilterSql

variable (dialect : Dialect)

namespace Template

/-- Every text of a template is a statement's. -/
def IsStatement (template : Template) : Prop :=
  ∀ s, Piece.text s ∈ template → IsStatementText dialect s

variable {dialect}

@[simp] theorem isStatement_nil : IsStatement dialect [] := by
  simp [IsStatement]

@[simp] theorem isStatement_text {s : String} {pieces : Template} :
    IsStatement dialect (.text s :: pieces) ↔
      IsStatementText dialect s ∧ IsStatement dialect pieces := by
  simp [IsStatement]

@[simp] theorem isStatement_value {v : Value} {pieces : Template} :
    IsStatement dialect (.value v :: pieces) ↔ IsStatement dialect pieces := by
  simp [IsStatement]

@[simp] theorem isStatement_append {first second : Template} :
    IsStatement dialect (first ++ second) ↔
      IsStatement dialect first ∧ IsStatement dialect second := by
  simp only [IsStatement, List.mem_append, or_imp, forall_and]

theorem isStatement_flatMap {α : Type} {items : List α} {f : α → Template}
    (hitems : ∀ item ∈ items, IsStatement dialect (f item)) :
    IsStatement dialect (items.flatMap f) := by
  intro s hs
  obtain ⟨item, hitem, hs⟩ := List.mem_flatMap.mp hs
  exact hitems item hitem s hs

theorem isStatement_commaSeparated {templates : List Template}
    (htemplates : ∀ template ∈ templates, IsStatement dialect template) :
    IsStatement dialect (commaSeparated templates) := by
  intro s hs
  rcases mem_commaSeparated hs with hcomma | ⟨template, htemplate, hs⟩
  · cases hcomma
    exact isStatementText_join [",", " "] (by decide)
  · exact htemplates template htemplate s hs

/-- The text of such a template is a statement's, whatever its values. -/
theorem IsStatement.sqlFrom {template : Template} (htemplate : IsStatement dialect template)
    (index : Nat) : IsStatementText dialect (template.sqlFrom dialect index) := by
  induction template generalizing index with
  | nil => exact isStatementText_empty
  | cons piece pieces ih =>
      cases piece with
      | text s =>
          rw [isStatement_text] at htemplate
          exact htemplate.1.append (ih htemplate.2 index)
      | value v =>
          rw [isStatement_value] at htemplate
          have hplaceholder : IsStatementText dialect (dialect.placeholder index) :=
            IsStatementText.of_lexeme (.placeholder index) trivial
          exact hplaceholder.append (ih htemplate (index + 1))

end Template

namespace Expr

/-- A node that mentions clean names only, and of the functions only the known ones. -/
def IsCleanNode (node : Expr) : Prop :=
  (∀ name ∈ node.ownNames, IsNameText name) ∧
    ∀ function ∈ node.function?, function ∈ Lexeme.functionNames

@[simp] theorem isCleanNode_column {name : ColumnName} :
    (column name).IsCleanNode ↔ name.IsCleanName := by
  simp [IsCleanNode, ownNames, function?, ColumnName.IsCleanName, or_imp, forall_and]

@[simp] theorem isCleanNode_star {table : Option String} :
    (star table).IsCleanNode ↔ ∀ name ∈ table, IsNameText name := by
  simp [IsCleanNode, ownNames, function?]

theorem isCleanNode_of_bare {node : Expr} (hnames : node.ownNames = [])
    (hfunction : node.function? = none) : node.IsCleanNode := by
  simp [IsCleanNode, hnames, hfunction]

theorem isStatementText_opText (op : BinaryOp) : IsStatementText dialect op.text := by
  have hword : ∀ word ∈ Lexeme.words, IsStatementText dialect (String.join [" ", word, " "]) := by
    intro word hword
    apply isStatementText_join
    simp only [List.forall_mem_cons, List.not_mem_nil, false_imp_iff, implies_true, and_true]
    exact ⟨by decide, hword, by decide⟩
  cases op with
  | eq => exact hword "=" (by decide)
  | notEq => exact hword "<>" (by decide)
  | lt => exact hword "<" (by decide)
  | ltEq => exact hword "<=" (by decide)
  | gt => exact hword ">" (by decide)
  | gtEq => exact hword ">=" (by decide)
  | like => exact hword "LIKE" (by decide)
  | and => exact hword "AND" (by decide)
  | or => exact hword "OR" (by decide)

theorem isStatementText_function {function : String} (hfunction : function ∈ Lexeme.functionNames)
    (marks : List String) (hmarks : ∀ mark ∈ marks, mark ∈ Lexeme.words) :
    IsStatementText dialect (function ++ String.join marks) := by
  have hword : function ∈ Lexeme.words :=
    List.mem_append_left _ (List.mem_append_right _ hfunction)
  exact (IsStatementText.of_lexeme (.word function) hword).append (isStatementText_join marks hmarks)

theorem isStatementText_aroundPart (part : DatePart) :
    IsStatementText dialect (dialect.aroundPart part).1 ∧
      IsStatementText dialect (dialect.aroundPart part).2 := by
  have hpart : Dialect.partName part ∈ Lexeme.words := by
    cases part <;> decide
  cases dialect with
  | postgres =>
      constructor
      · have hopen : IsStatementText .postgres "CAST(EXTRACT(" :=
          isStatementText_join ["CAST", "(", "EXTRACT", "("] (by decide)
        have hname : IsStatementText .postgres (String.join [Dialect.partName part]) :=
          isStatementText_join _ (by simpa using hpart)
        have hfrom : IsStatementText .postgres " FROM " :=
          isStatementText_join [" ", "FROM", " "] (by decide)
        exact (hopen.append hname).append hfrom
      · exact isStatementText_join [")", " ", "AS", " ", "INTEGER", ")"] (by decide)
  | mySql =>
      constructor
      · have hname : IsStatementText .mySql (String.join [Dialect.partName part, "("]) :=
          isStatementText_join _ (by simpa using ⟨hpart, by decide⟩)
        exact hname
      · exact isStatementText_join [")"] (by decide)

variable {dialect}

theorem isStatement_templates {exprs : List Expr}
    (hexprs : ∀ expr ∈ exprs, Template.IsStatement dialect (expr.template dialect)) :
    Template.IsStatement dialect (Template.commaSeparated (templates dialect exprs)) := by
  apply Template.isStatement_commaSeparated
  rw [templates_eq_map]
  intro template htemplate
  obtain ⟨expr, hexpr, rfl⟩ := List.mem_map.mp htemplate
  exact hexprs expr hexpr

/-- An expression of clean names is written in a statement's text. -/
theorem isStatement_template {expr : Expr} (hexpr : expr.Every IsCleanNode) :
    Template.IsStatement dialect (expr.template dialect) := by
  have hwords := @isStatementText_join dialect
  induction expr with
  | column name =>
      have hname : name.IsCleanName := by simpa using hexpr
      simpa [template] using isStatementText_columnText hname
  | star table =>
      have htable : ∀ name ∈ table, IsNameText name := by simpa using hexpr
      have hstar : IsStatementText dialect "*" := hwords ["*"] (by decide)
      simpa [template] using (isStatementText_qualifierText htable).append hstar
  | value v => simp [template]
  | binary op left right ihleft ihright =>
      rw [every_binary] at hexpr
      have hopen : IsStatementText dialect "(" := hwords ["("] (by decide)
      have hclose : IsStatementText dialect ")" := hwords [")"] (by decide)
      simp [template, hopen, hclose, ihleft hexpr.2.1, ihright hexpr.2.2,
        isStatementText_opText]
  | call function arguments ih =>
      rw [every_call] at hexpr
      have hfunction : function ∈ Lexeme.functionNames := hexpr.1.2 function rfl
      have hopen : IsStatementText dialect (function ++ "(") :=
        isStatementText_function dialect hfunction ["("] (by decide)
      have hclose : IsStatementText dialect ")" := hwords [")"] (by decide)
      have harguments := isStatement_templates fun argument hargument =>
        ih argument hargument (hexpr.2 argument hargument)
      simp [template, hopen, hclose, harguments]
  | callStar function =>
      rw [every_callStar] at hexpr
      have hfunction : function ∈ Lexeme.functionNames := hexpr.2 function rfl
      have hstar : IsStatementText dialect (function ++ "(*)") :=
        isStatementText_function dialect hfunction ["(", "*", ")"] (by decide)
      simp [template, hstar]
  | named expr asName ih =>
      rw [every_named] at hexpr
      have hname : IsNameText asName := hexpr.1.1 asName (by simp [ownNames])
      have has : IsStatementText dialect " AS " := hwords [" ", "AS", " "] (by decide)
      simp [template, ih hexpr.2, has.append (isStatementText_quoteName hname)]
  | castText expr ih =>
      rw [every_castText] at hexpr
      have hopen : IsStatementText dialect "CAST(" := hwords ["CAST", "("] (by decide)
      have hclose : IsStatementText dialect (" AS " ++ dialect.textType ++ ")") := by
        cases dialect with
        | postgres => exact hwords [" ", "AS", " ", "TEXT", ")"] (by decide)
        | mySql => exact hwords [" ", "AS", " ", "CHAR", ")"] (by decide)
      simp [template, ih hexpr.2, hopen, hclose]
  | inList expr items negated ih ihitems =>
      rw [every_inList] at hexpr
      have hin : IsStatementText dialect (if negated then " NOT IN (" else " IN (") := by
        cases negated with
        | false => exact hwords [" ", "IN", " ", "("] (by decide)
        | true => exact hwords [" ", "NOT", " ", "IN", " ", "("] (by decide)
      have hclose : IsStatementText dialect ")" := hwords [")"] (by decide)
      have hitems := isStatement_templates fun item hitem =>
        ihitems item hitem (hexpr.2.2 item hitem)
      simp [template, ih hexpr.2.1, hin, hclose, hitems]
  | between expr low high negated ih ihlow ihhigh =>
      rw [every_between] at hexpr
      have hbetween : IsStatementText dialect
          (if negated then " NOT BETWEEN " else " BETWEEN ") := by
        cases negated with
        | false => exact hwords [" ", "BETWEEN", " "] (by decide)
        | true => exact hwords [" ", "NOT", " ", "BETWEEN", " "] (by decide)
      have hand : IsStatementText dialect " AND " := hwords [" ", "AND", " "] (by decide)
      simp [template, ih hexpr.2.1, ihlow hexpr.2.2.1, ihhigh hexpr.2.2.2, hbetween, hand]
  | isNull expr negated ih =>
      rw [every_isNull] at hexpr
      have hnull : IsStatementText dialect
          (if negated then " IS NOT NULL" else " IS NULL") := by
        cases negated with
        | false => exact hwords [" ", "IS", " ", "NULL"] (by decide)
        | true => exact hwords [" ", "IS", " ", "NOT", " ", "NULL"] (by decide)
      simp [template, ih hexpr.2, hnull]
  | datePart part expr ih =>
      rw [every_datePart] at hexpr
      have hpart := isStatementText_aroundPart dialect part
      simp [template, ih hexpr.2, hpart.1, hpart.2]

end Expr

theorem isStatementText_sourceText {dialect : Dialect} {source : Source}
    (hsource : ∀ name ∈ source.names, IsNameText name) :
    IsStatementText dialect (source.text dialect) := by
  rcases source with ⟨⟨schema, name⟩, asName⟩
  simp only [Source.names, List.mem_append, List.mem_cons, Option.mem_toList, or_imp,
    forall_and, forall_eq] at hsource
  obtain ⟨hschema, hname, hasName⟩ := hsource
  have htable : IsStatementText dialect (TableName.text dialect ⟨schema, name⟩) :=
    (isStatementText_qualifierText hschema).append (isStatementText_quoteName hname)
  cases asName with
  | none => exact htable.append isStatementText_empty
  | some other =>
      have has : IsStatementText dialect " AS " :=
        isStatementText_join [" ", "AS", " "] (by decide)
      exact htable.append (has.append (isStatementText_quoteName (hasName other rfl)))

theorem isStatementText_joinKindText (dialect : Dialect) (kind : JoinKind) :
    IsStatementText dialect kind.text := by
  cases kind with
  | inner => exact isStatementText_join [" ", "INNER", " ", "JOIN", " "] (by decide)
  | left => exact isStatementText_join [" ", "LEFT", " ", "JOIN", " "] (by decide)
  | right => exact isStatementText_join [" ", "RIGHT", " ", "JOIN", " "] (by decide)
  | full => exact isStatementText_join [" ", "FULL", " ", "OUTER", " ", "JOIN", " "] (by decide)

namespace Select

/-- A statement of clean names and known functions. -/
structure IsClean (select : Select) : Prop where
  columns : ∀ expr ∈ select.columns, expr.Every Expr.IsCleanNode
  source : ∀ source ∈ select.source, ∀ name ∈ source.names, IsNameText name
  joinSources : ∀ join ∈ select.joins, ∀ name ∈ join.source.names, IsNameText name
  joinConditions : ∀ join ∈ select.joins, join.on.Every Expr.IsCleanNode
  condition : ∀ expr ∈ select.condition, expr.Every Expr.IsCleanNode
  orderings : ∀ ordering ∈ select.orderings, ordering.expr.Every Expr.IsCleanNode
  limit : ∀ expr ∈ select.limit, expr.Every Expr.IsCleanNode
  offset : ∀ expr ∈ select.offset, expr.Every Expr.IsCleanNode

variable {dialect : Dialect} {select : Select}

theorem isStatement_clauseTemplate {keyword : String} {expr : Option Expr}
    (hkeyword : IsStatementText dialect keyword)
    (hexpr : ∀ e ∈ expr, e.Every Expr.IsCleanNode) :
    Template.IsStatement dialect (clauseTemplate dialect keyword expr) := by
  cases expr with
  | none => exact Template.isStatement_nil
  | some e => simp [clauseTemplate, hkeyword, Expr.isStatement_template (hexpr e rfl)]

theorem isStatement_joinTemplate {join : JoinClause}
    (hsource : ∀ name ∈ join.source.names, IsNameText name)
    (hon : join.on.Every Expr.IsCleanNode) :
    Template.IsStatement dialect (join.template dialect) := by
  have hwords : IsStatementText dialect " ON " := isStatementText_join [" ", "ON", " "] (by decide)
  have htext := ((isStatementText_joinKindText dialect join.kind).append
    (isStatementText_sourceText hsource)).append hwords
  exact Template.isStatement_text.mpr ⟨htext, Expr.isStatement_template hon⟩

theorem isStatement_orderingsTemplate {orderings : List OrderItem}
    (horderings : ∀ ordering ∈ orderings, ordering.expr.Every Expr.IsCleanNode) :
    Template.IsStatement dialect (orderingsTemplate dialect orderings) := by
  have horder : IsStatementText dialect " ORDER BY " :=
    isStatementText_join [" ", "ORDER", " ", "BY", " "] (by decide)
  have hdirection : ∀ direction : Direction, IsStatementText dialect direction.text := by
    intro direction
    cases direction with
    | ascending => exact isStatementText_join [" ", "ASC"] (by decide)
    | descending => exact isStatementText_join [" ", "DESC"] (by decide)
  rw [orderingsTemplate]
  split
  · exact Template.isStatement_nil
  · refine Template.isStatement_text.mpr ⟨horder, Template.isStatement_commaSeparated ?_⟩
    intro template htemplate
    obtain ⟨⟨expr, direction⟩, hordering, rfl⟩ := List.mem_map.mp htemplate
    have hexpr : Template.IsStatement dialect (expr.template dialect) :=
      Expr.isStatement_template (horderings _ hordering)
    cases direction <;> simp [OrderItem.template, hexpr, hdirection]

/-- A clean statement is written in a statement's text. -/
theorem IsClean.isStatement_template (hselect : select.IsClean) :
    Template.IsStatement dialect (select.template dialect) := by
  have hword : IsStatementText dialect "SELECT " := isStatementText_join ["SELECT", " "] (by decide)
  have hwhere : IsStatementText dialect " WHERE " :=
    isStatementText_join [" ", "WHERE", " "] (by decide)
  have hlimitWord : IsStatementText dialect " LIMIT " :=
    isStatementText_join [" ", "LIMIT", " "] (by decide)
  have hoffsetWord : IsStatementText dialect " OFFSET " :=
    isStatementText_join [" ", "OFFSET", " "] (by decide)
  have hfrom : Template.IsStatement dialect (sourceTemplate dialect select.source) := by
    cases hsome : select.source with
    | none => exact Template.isStatement_nil
    | some source =>
        have hfromWord : IsStatementText dialect " FROM " :=
          isStatementText_join [" ", "FROM", " "] (by decide)
        simpa [sourceTemplate] using
          hfromWord.append (isStatementText_sourceText (hselect.source source hsome))
  have hjoins : Template.IsStatement dialect (select.joins.flatMap (JoinClause.template dialect)) :=
    Template.isStatement_flatMap fun join hjoin =>
      isStatement_joinTemplate (hselect.joinSources join hjoin) (hselect.joinConditions join hjoin)
  have hcolumns : Template.IsStatement dialect (select.columnsTemplate dialect) :=
    Expr.isStatement_templates fun expr hexpr =>
      Expr.isStatement_template (hselect.columns expr hexpr)
  simp only [Select.template, rowsTemplate, pageTemplate, List.cons_append,
    Template.isStatement_text, Template.isStatement_append]
  exact ⟨hword,
    ⟨hcolumns, ⟨hfrom, hjoins⟩, isStatement_clauseTemplate hwhere hselect.condition⟩,
    ⟨isStatement_orderingsTemplate hselect.orderings,
      isStatement_clauseTemplate hlimitWord hselect.limit⟩,
    isStatement_clauseTemplate hoffsetWord hselect.offset⟩

/-- Every name in a clean statement is clean, wherever it stands. -/
theorem IsClean.isNameText_of_mem_names (hselect : select.IsClean) :
    ∀ name ∈ select.names, IsNameText name := by
  have hexprs : ∀ expr ∈ select.exprs, expr.Every Expr.IsCleanNode := by
    simp only [exprs, List.mem_append, List.mem_map, Option.mem_toList, or_imp, forall_and,
      forall_exists_index, and_imp, forall_apply_eq_imp_iff₂]
    exact ⟨⟨⟨⟨⟨hselect.columns, hselect.joinConditions⟩, hselect.condition⟩, hselect.orderings⟩,
      hselect.limit⟩, hselect.offset⟩
  rw [forall_mem_names_iff, sources, List.forall_mem_append, List.forall_mem_map]
  refine ⟨⟨?_, hselect.joinSources⟩, ?_⟩
  · exact fun source hsource => hselect.source source (Option.mem_toList.mp hsource)
  · exact fun expr hexpr => (hexprs expr hexpr).imp fun _ hnode => hnode.1

end Select

end FilterSql

/-
Conditions are read back from their texts.

The template of a condition and its signs are cut in different places but give one text and
the same parameters.  So the text and the parameters of a condition tell it apart from all
others, groups, lists and ranges included.
-/
import FilterSql.Proofs.Sql.Conditions
import FilterSql.Proofs.Sql.Placeholders

namespace FilterSql

/-- Two templates give one text, whatever the index of the first value, and the same
parameters. -/
structure Template.ReadsAs (dialect : Dialect) (first second : Template) : Prop where
  sqlFrom_eq : ∀ index, first.sqlFrom dialect index = second.sqlFrom dialect index
  params_eq : first.params = second.params

namespace Template.ReadsAs

variable {dialect : Dialect} {first second third fourth : Template}

theorem append (hfirst : first.ReadsAs dialect second) (hsecond : third.ReadsAs dialect fourth) :
    ReadsAs dialect (first ++ third) (second ++ fourth) where
  sqlFrom_eq index := by
    rw [sqlFrom_append, sqlFrom_append, hfirst.sqlFrom_eq, hfirst.params_eq, hsecond.sqlFrom_eq]
  params_eq := by rw [params_append, params_append, hfirst.params_eq, hsecond.params_eq]

theorem refl (template : Template) : template.ReadsAs dialect template :=
  ⟨fun _ => rfl, rfl⟩

theorem trans (hfirst : first.ReadsAs dialect second) (hsecond : second.ReadsAs dialect third) :
    first.ReadsAs dialect third where
  sqlFrom_eq index := (hfirst.sqlFrom_eq index).trans (hsecond.sqlFrom_eq index)
  params_eq := hfirst.params_eq.trans hsecond.params_eq

/-- A text may be cut in two. -/
theorem cut {text left right : String} (htext : text = left ++ right) :
    ReadsAs dialect [.text text] [.text left, .text right] where
  sqlFrom_eq index := by simp [sqlFrom, htext]
  params_eq := rfl

end Template.ReadsAs

namespace Sign

variable {dialect : Dialect}

theorem readsAs_ofColumn (column : ColumnName) (after : String) :
    Template.ReadsAs dialect [.text (column.text dialect), .text after]
      ((ofColumn column after).map (piece dialect)) := by
  rcases column with ⟨_ | table, column⟩ <;> constructor <;>
    simp [ofColumn, piece, Template.sqlFrom, Template.params, ColumnName.text, qualifierText,
      String.append_assoc]

theorem readsAs_ofList (values : List Value) :
    Template.ReadsAs dialect
      (Template.commaSeparated (Expr.templates dialect (values.map .value)) ++ [.text ")"])
      ((ofList values).map (piece dialect)) := by
  fun_induction ofList values with
  | case1 => exact .refl _
  | case2 first => exact .refl _
  | case3 first second values ih =>
      exact (Template.ReadsAs.refl [.value first, .text ", "]).append ih

end Sign

namespace Aspect

variable {dialect : Dialect}

theorem readsAs_template (op : BinaryOp) (aspect : Aspect) (column : ColumnName) :
    Template.ReadsAs dialect ((aspect.expr column).template dialect ++ [.text op.text])
      ((Sign.ofWords (aspect.before dialect) ++ Sign.ofColumn column (aspect.after dialect op) ++
        Sign.ofWords (aspect.between dialect op)).map (Sign.piece dialect)) := by
  rw [List.map_append, List.map_append]
  have hcolumn := @Sign.readsAs_ofColumn dialect column (aspect.after dialect op)
  cases aspect with
  | itself => exact hcolumn.append (.refl [])
  | lowered => exact ((Template.ReadsAs.refl [.text "LOWER("]).append hcolumn).append (.refl _)
  | text => exact ((Template.ReadsAs.refl [.text "CAST("]).append hcolumn).append (.refl _)
  | part name =>
      cases dialect with
      | mySql => exact ((Template.ReadsAs.refl [.text _]).append hcolumn).append (.refl _)
      | postgres =>
          -- The words of CAST and those of EXTRACT are one text in the template.
          have hopen : Template.ReadsAs .postgres
              [.text (Dialect.postgres.aroundPart name).1]
              [.text "CAST(", .text ("EXTRACT(" ++ Dialect.partName name ++ " FROM ")] :=
            .cut (by cases name <;> rfl)
          have hclose : Template.ReadsAs .postgres
              [.text (Dialect.postgres.aroundPart name).2] [.text ")", .text " AS INTEGER)"] :=
            .cut rfl
          have hend := (Template.ReadsAs.refl [.text (column.text .postgres)]).append
            (hclose.append (.refl [.text op.text]))
          rw [List.append_assoc]
          exact hopen.append
            (hend.trans (hcolumn.append (.refl [.text " AS INTEGER)", .text op.text])))

end Aspect

namespace Condition

variable {dialect : Dialect}

theorem readsAs_template (condition : Condition) :
    Template.ReadsAs dialect (condition.expr.template dialect)
      ((condition.signs dialect).map (Sign.piece dialect)) := by
  induction condition with
  | comparison op aspect column value =>
      have haspect := @Aspect.readsAs_template dialect op aspect column
      have hopened := (Template.ReadsAs.refl [.text "("]).append haspect
      have hclosed := hopened.append (.refl [.value value, .text ")"])
      simpa [signs, expr, Expr.template, Sign.piece] using hclosed
  | test column asked =>
      have hcolumn := @Sign.readsAs_ofColumn dialect column asked.after
      rw [signs, List.map_append]
      cases asked with
      | list values negated => exact hcolumn.append (Sign.readsAs_ofList values)
      | range low high negated =>
          exact hcolumn.append (.refl [.value low, .text " AND ", .value high])
      | isNull negated => exact hcolumn.append (.refl [])
  | combined op left right ihleft ihright =>
      have hleft := (Template.ReadsAs.refl [.text "("]).append ihleft
      have hright := (hleft.append (.refl [.text op.text])).append ihright
      have hclosed := hright.append (.refl [.text ")"])
      simpa [signs, expr, Expr.template, Sign.piece] using hclosed

/-- No other condition has the same text and the same parameters. -/
theorem eq_of_sql_eq {first second : Condition}
    (hsql : (first.expr.template dialect).sql dialect = (second.expr.template dialect).sql dialect)
    (hparams : (first.expr.template dialect).params = (second.expr.template dialect).params) :
    first = second := by
  have hfirst := @readsAs_template dialect first
  have hsecond := @readsAs_template dialect second
  rw [Template.sql, Template.sql, hfirst.sqlFrom_eq, hsecond.sqlFrom_eq] at hsql
  rw [hfirst.params_eq, hsecond.params_eq] at hparams
  have hsigns : first.signs dialect = second.signs dialect :=
    Sign.eq_of_sqlFrom_eq first.isAllowed_signs second.isAllowed_signs hsql hparams
  have hsame : first.signs dialect ++ [] = second.signs dialect ++ [] := by rw [hsigns]
  exact (signs_append_inj hsame).1

end Condition

/-- An expression that is a condition on columns. -/
def Expr.IsCondition (expr : Expr) : Prop :=
  ∃ condition : Condition, condition.expr = expr

end FilterSql

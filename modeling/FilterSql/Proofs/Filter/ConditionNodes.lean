/-
What a condition on a column is made of.

Whatever a filter value asks for, its condition mentions no column but the one it is
about, and no function but the one for lower case.
-/
import FilterSql.Proofs.Filter.ConditionForms
import FilterSql.Proofs.Sql.Nodes

namespace FilterSql

namespace ColumnName

/-- The nodes that conditions on a column may have. -/
def IsConditionNode (column : ColumnName) : Expr → Prop
  | .column name => name = column
  | .call function _ => function = "LOWER"
  | .star _ | .callStar _ | .named _ _ | .isNull _ _ => False
  | .value _ | .binary _ _ _ | .castText _ | .inList _ _ _ | .between _ _ _ _ | .datePart _ _ =>
      True

variable {column : ColumnName} {expr : Expr}

theorem Form.every (hexpr : column.Form expr) : expr.Every column.IsConditionNode := by
  induction hexpr with
  | comparison | lowered | text | range | datePart => simp [IsConditionNode]
  | list negated _ =>
      rw [Expr.every_inList]
      refine ⟨trivial, (Expr.every_column _).mpr rfl, ?_⟩
      intro item hitem
      obtain ⟨value, -, rfl⟩ := List.mem_map.mp hitem
      exact (Expr.every_value value).mpr trivial
  | and _ _ ihleft ihright => exact (Expr.every_binary _ _ _).mpr ⟨trivial, ihleft, ihright⟩

/-- A condition on a column is about that column alone. -/
theorem every_condition? {cast raw : String} {mode : DefaultMatch}
    (hexpr : column.condition? cast raw mode = some expr) :
    expr.Every column.IsConditionNode :=
  (form_of_condition? hexpr).every

end ColumnName

end FilterSql

/-
Conditions on an absent column.

Whatever an operator asks of a column that has no value, the answer is unknown.  Comparing
is unknown, functions leave the absent value as it is, and neither a negation nor a list or
a range of unknown comparisons decides anything.
-/
import FilterSql.Proofs.Filter.ConditionForms
import FilterSql.Proofs.Sql.Truth

namespace FilterSql

namespace Truth

@[simp] theorem negatedIf_unknown (negated : Bool) : negatedIf negated unknown = unknown := by
  cases negated <;> rfl

theorem or_unknown_of_ne_yes {truth : Truth} (htruth : truth ≠ yes) :
    unknown.or truth = unknown := by
  cases truth with
  | no | unknown => rfl
  | yes => exact absurd rfl htruth

/-- One of several of which none is known. -/
theorem any_eq_unknown {truths : List Truth} (hne : truths ≠ [])
    (htruths : ∀ truth ∈ truths, truth = unknown) : any truths = unknown := by
  induction truths with
  | nil => exact absurd rfl hne
  | cons first rest ih =>
      have hrest : any rest ≠ yes := by
        cases rest with
        | nil => decide
        | cons second rest =>
            rw [ih (List.cons_ne_nil _ _) fun truth h => htruths truth (List.mem_cons_of_mem _ h)]
            decide
      rw [htruths first List.mem_cons_self]
      exact or_unknown_of_ne_yes hrest

end Truth

@[simp] theorem Engine.compare_null (engine : Engine) (op : BinaryOp) (value : Value) :
    engine.compare op .null value = .unknown := rfl

@[simp] theorem Value.mapPresent_null (f : Value → Value) : Value.null.mapPresent f = .null := rfl

theorem Target.truth_of_comparisonOp? (engine : Engine) (read : ColumnName → Value)
    {operator : Operator} {op : BinaryOp} (hop : comparisonOp? operator = some op)
    (left right : Expr) : (Expr.binary op left right).truth engine read =
      engine.compare op (left.scalar engine read) (right.scalar engine read) := by
  cases operator <;> cases hop <;> rfl

namespace ColumnName

variable {engine : Engine} {read : ColumnName → Value} {column : ColumnName} {expr : Expr}

theorem Form.truth_eq_unknown (habsent : read column = .null) (hexpr : column.Form expr) :
    expr.truth engine read = .unknown := by
  induction hexpr with
  | comparison value hop =>
      simp [Target.truth_of_comparisonOp? engine read hop, Expr.scalar, habsent]
  | lowered | text | range | datePart => simp [Expr.truth, Expr.scalar, habsent, Truth.and]
  | list negated hvalues =>
      rw [Expr.truth, Truth.any_eq_unknown, Truth.negatedIf_unknown]
      · simpa using hvalues
      · intro truth htruth
        obtain ⟨item, -, rfl⟩ := List.mem_map.mp htruth
        rw [Expr.scalar, habsent, Engine.compare_null]
  | and _ _ ihleft ihright =>
      rw [Expr.and, Expr.truth, ihleft, ihright]
      rfl

/-- A condition on a column is unknown of a row where the column is absent. -/
theorem truth_condition? (habsent : read column = .null) {cast raw : String}
    {mode : DefaultMatch} (hexpr : column.condition? cast raw mode = some expr) :
    expr.truth engine read = .unknown :=
  (form_of_condition? hexpr).truth_eq_unknown habsent

end ColumnName

end FilterSql

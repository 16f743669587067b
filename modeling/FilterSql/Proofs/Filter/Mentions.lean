/-
The columns that a predicate mentions.

A predicate put together from parts mentions what its parts mention.  What a value makes
of a field mentions the field's own column, or related columns under the name of the join
that the field is searched through.
-/
import FilterSql.Proofs.Filter.CleanPredicate
import FilterSql.Proofs.Filter.ValueCases

namespace FilterSql

/-- A column stands somewhere in an expression. -/
def Expr.Mentions (expr : Expr) (name : ColumnName) : Prop :=
  .column name ∈ expr.nodes

@[simp] theorem Expr.mentions_column {name other : ColumnName} :
    (Expr.column name).Mentions other ↔ other = name := by
  simp [Mentions]

@[simp] theorem Expr.mentions_binary {op : BinaryOp} {left right : Expr} {name : ColumnName} :
    (Expr.binary op left right).Mentions name ↔ left.Mentions name ∨ right.Mentions name := by
  simp [Mentions]

@[simp] theorem Expr.mentions_isNull {expr : Expr} {negated : Bool} {name : ColumnName} :
    (Expr.isNull expr negated).Mentions name ↔ expr.Mentions name := by
  simp [Mentions]

theorem ColumnName.eq_of_mentions {column name : ColumnName} {cast raw : String}
    {mode : DefaultMatch} {expr : Expr} (hexpr : column.condition? cast raw mode = some expr)
    (hname : expr.Mentions name) : name = column :=
  every_condition? hexpr _ hname

namespace Predicate

/-- A column stands somewhere in the condition, if there is one. -/
def Mentions (predicate : Predicate) (name : ColumnName) : Prop :=
  ∃ condition ∈ predicate.condition, condition.Mentions name

variable {name : ColumnName}

theorem mentions_and {left right : Predicate} :
    (left.and right).Mentions name ↔ left.Mentions name ∨ right.Mentions name := by
  rcases left with ⟨_ | left, leftJoins⟩ <;> rcases right with ⟨_ | right, rightJoins⟩ <;>
    simp [Mentions, Predicate.and, combine, mergeConditions, Expr.and]

theorem mentions_or {left right : Predicate} :
    (left.or right).Mentions name ↔ left.Mentions name ∨ right.Mentions name := by
  rcases left with ⟨_ | left, leftJoins⟩ <;> rcases right with ⟨_ | right, rightJoins⟩ <;>
    simp [Mentions, Predicate.or, combine, mergeConditions, Expr.or]

theorem not_mentions_none : ¬ none.Mentions name := by
  simp [Mentions, none]

theorem Assembled.mentions_iff {parts : List Predicate} {predicate : Predicate}
    (h : Assembled parts predicate) :
    predicate.Mentions name ↔ ∃ part ∈ parts, part.Mentions name := by
  induction h with
  | none => simp [not_mentions_none]
  | part predicate => simp
  | and _ _ ihleft ihright =>
      simp only [mentions_and, ihleft, ihright, List.mem_append, or_and_right, exists_or]
  | or _ _ ihleft ihright =>
      simp only [mentions_or, ihleft, ihright, List.mem_append, or_and_right, exists_or]
  | outer _ ih => exact ih

end Predicate

namespace ColumnName

/-- A text names a column without a table, or with this one. -/
def IsOwn (raw table : String) : Prop :=
  ∀ name ∈ ofText? raw, ∀ other ∈ name.table, other = table

/-- A text names a column without a table. -/
def IsBare (raw : String) : Prop :=
  ∀ name ∈ ofText? raw, name.table = none

instance (raw table : String) : Decidable (IsOwn raw table) :=
  inferInstanceAs (Decidable (∀ name ∈ ofText? raw, ∀ other ∈ name.table, other = table))

instance (raw : String) : Decidable (IsBare raw) :=
  inferInstanceAs (Decidable (∀ name ∈ ofText? raw, name.table = none))

/-- A name is of the given table when the text has none, and of its own table otherwise. -/
theorem table_of_isOwn {raw own table : String} (hraw : IsOwn raw own) (htable : IsNameText table)
    {name : ColumnName} (hname : resolve? raw table = some name) :
    IsBare raw ∧ name.table = some table ∨ ¬ IsBare raw ∧ name.table = some own := by
  obtain ⟨read, hread, rfl⟩ := Option.map_eq_some_iff.mp hname
  rw [withTable]
  split
  next other hother =>
    right
    refine ⟨fun hbare => ?_, ?_⟩
    · rw [hbare read hread] at hother
      cases hother
    · rw [hother, hraw read hread other hother]
  next hnone =>
    left
    refine ⟨fun other hmem => ?_, ?_⟩
    · rw [Option.mem_def, hread, Option.some.injEq] at hmem
      rw [← hmem, hnone]
    · rw [sanitized_eq_self htable]

end ColumnName

/-- A related column that names no table but the related one is of the join. -/
theorem Join.table_of_isOwn {join : Join} (hjoin : IsNameText join.asName) {raw : String}
    (hraw : ColumnName.IsOwn raw join.table) {name : ColumnName}
    (hname : join.column? raw = some name) : name.table = some join.asName := by
  obtain ⟨target, htarget, rfl⟩ := Option.map_eq_some_iff.mp hname
  rcases ColumnName.table_of_isOwn hraw hjoin htarget with ⟨-, htable⟩ | ⟨-, htable⟩
  · split
    · rfl
    · exact htable
  · rw [if_pos htable]

namespace Field

variable {scope : Scope} {field : Field}

/-- A value's predicate mentions the field's own column, or related columns under the name of a
join that it has. -/
theorem mentions_valuePredicate {raw : String} {name : ColumnName}
    (hname : (field.valuePredicate scope raw).Mentions name) :
    field.column? scope = some name ∨
      ∃ join ∈ (field.valuePredicate scope raw).joins, field.ReadsRelated scope join name := by
  have hmakes : field.Makes scope raw (field.valuePredicate scope raw) := makes_valuePredicate
  generalize field.valuePredicate scope raw = predicate at hmakes hname ⊢
  cases hmakes with
  | nothing => exact absurd hname Predicate.not_mentions_none
  | nullCheck hkey _ =>
      obtain ⟨_, ⟨rfl⟩, hmentions⟩ := hname
      rw [Expr.mentions_isNull, Expr.mentions_column] at hmentions
      exact Or.inl (hmentions ▸ hkey)
  | own hkey _ _ =>
      obtain ⟨condition, hcondition, hmentions⟩ := hname
      rw [ColumnName.eq_of_mentions hcondition hmentions]
      exact Or.inl hkey
  | @related columns join condition _ hcolumns hjoin hmatching =>
      right
      refine ⟨join, List.mem_singleton_self join, hjoin, columns, hcolumns, ?_⟩
      obtain ⟨part, hpart, hmentions⟩ := hmatching.mentions_iff.mp hname
      obtain ⟨related, hrelated, column, own, hcolumn, hcompiled, rfl⟩ :=
        exists_of_mem_matchingParts hpart
      obtain ⟨_, ⟨rfl⟩, hmentions⟩ := hmentions
      rw [ColumnName.eq_of_mentions hcompiled hmentions]
      exact ⟨related, hrelated, hcolumn⟩

end Field

end FilterSql

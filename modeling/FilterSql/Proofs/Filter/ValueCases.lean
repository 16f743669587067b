/-
The ways in which a value makes a predicate of a field.

A question for absent values is about the field's own column, and so is any other value of
a field that is not searched through a related table.  One that is, makes conditions on
the related columns and joins their table once.
-/
import FilterSql.Proofs.Filter.Assembly

namespace FilterSql

open Predicate (Assembled)

theorem Predicate.joins_any_ofExpr (conditions : List Expr) :
    (any (conditions.map ofExpr)).joins = [] := by
  refine @List.foldlRecOn _ _ (fun sofar : Predicate => sofar.joins = []) _ _ none rfl ?_
  intro sofar hsofar predicate hpredicate
  obtain ⟨condition, -, rfl⟩ := List.mem_map.mp hpredicate
  exact hsofar

namespace Relation

/-- The related table as it is joined. -/
def tableName (relation : Relation) : String :=
  String.ofList relation.tableChars

/-- What a join is made of. -/
theorem join?_eq_some {relation : Relation} {key : ColumnName} {kind : JoinKind} {join : Join} :
    relation.join? key kind = some join ↔ relation.tableChars ≠ [] ∧
      ∃ target,
        ColumnName.resolve? relation.relatedField (joinName relation.tableChars key) = some target ∧
        join = ⟨kind, relation.tableName, joinName relation.tableChars key,
          .binary .eq (.column target) (.column key)⟩ := by
  simp only [join?]
  split
  next hempty => simp [List.isEmpty_iff.mp hempty]
  next hsome =>
    have hchars : relation.tableChars ≠ [] := fun hnil => hsome (by rw [hnil]; rfl)
    rw [Option.map_eq_some_iff, and_iff_right hchars]
    constructor
    · rintro ⟨target, htarget, rfl⟩
      exact ⟨target, htarget, rfl⟩
    · rintro ⟨target, htarget, rfl⟩
      exact ⟨target, htarget, rfl⟩

end Relation

namespace Field

/-- What stands behind a join that a field is searched through. -/
theorem searchJoin?_eq_some {scope : Scope} {field : Field} {join : Join} :
    field.searchJoin? scope = some join ↔ ∃ relation columns key,
      field.relation = some relation ∧ field.relatedColumns? = some columns ∧
      field.column? scope = some key ∧ relation.join? key scope.relationJoin = some join := by
  simp only [searchJoin?, Option.bind_eq_bind, Option.bind_eq_some_iff]
  constructor
  · rintro ⟨relation, hrelation, columns, hcolumns, key, hkey, hjoin⟩
    exact ⟨relation, columns, key, hrelation, hcolumns, hkey, hjoin⟩
  · rintro ⟨relation, columns, key, hrelation, hcolumns, hkey, hjoin⟩
    exact ⟨relation, hrelation, columns, hcolumns, key, hkey, hjoin⟩

section Matching

variable (columns : List RelatedColumn) (join : Join) (raw : String)

/-- What a value asks of related columns, one condition for each column that accepts it. -/
def matchingParts : List Predicate :=
  (columns.filterMap (RelatedColumn.condition? · join raw)).map Predicate.ofExpr

variable {columns join raw} in
theorem exists_of_mem_matchingParts {part : Predicate}
    (hpart : part ∈ matchingParts columns join raw) :
    ∃ related ∈ columns, ∃ column condition, join.column? related.column = some column ∧
      column.condition? related.cast raw .byType = some condition ∧
      part = .ofExpr condition := by
  obtain ⟨condition, hcondition, rfl⟩ := List.mem_map.mp hpart
  obtain ⟨related, hrelated, hcompiled⟩ := List.mem_filterMap.mp hcondition
  obtain ⟨column, hcolumn, hcompiled⟩ := Option.bind_eq_some_iff.mp hcompiled
  exact ⟨related, hrelated, column, condition, hcolumn, hcompiled, rfl⟩

/-- One of the related columns matches under the join; without a condition on one of them their
table is not joined. -/
theorem relatedPredicate_cases :
    relatedPredicate columns join raw = .none ∨
      ∃ condition, Assembled (matchingParts columns join raw) (.ofExpr condition) ∧
        relatedPredicate columns join raw = ⟨some condition, [join]⟩ := by
  have hmatching := Assembled.any_map (fun condition => .part (Predicate.ofExpr condition))
    (columns.filterMap (RelatedColumn.condition? · join raw))
  have hjoins := Predicate.joins_any_ofExpr
    (columns.filterMap (RelatedColumn.condition? · join raw))
  rw [← List.map_eq_flatMap, ← matchingParts] at hmatching
  rw [← matchingParts] at hjoins
  rw [relatedPredicate, ← matchingParts]
  generalize Predicate.any (matchingParts columns join raw) = matching at hmatching hjoins ⊢
  rcases matching with ⟨_ | condition, joins⟩
  · exact Or.inl rfl
  · obtain rfl : joins = [] := hjoins
    exact Or.inr ⟨condition, hmatching, rfl⟩

end Matching

variable (scope : Scope) (field : Field) (raw : String)

/-- The predicate that a value may make of a field. -/
inductive Makes : Predicate → Prop
  | nothing : Makes .none
  | nullCheck {key : ColumnName} {check : NullCheck} (hkey : field.column? scope = some key)
      (hcheck : NullCheck.ofText? raw = some check) :
      Makes (.ofExpr (.isNull (.column key) (check == .isNotNull)))
  | own {key : ColumnName} {mode : DefaultMatch} (hkey : field.column? scope = some key)
      (hcheck : NullCheck.isAsked raw = false) (hcolumns : field.relatedColumns? = none) :
      Makes (.ofOption (key.condition? field.cast raw mode))
  | related {columns : List RelatedColumn} {join : Join} {condition : Expr}
      (hcheck : NullCheck.isAsked raw = false) (hcolumns : field.relatedColumns? = some columns)
      (hjoin : field.searchJoin? scope = some join)
      (hmatching : Assembled (matchingParts columns join raw) (.ofExpr condition)) :
      Makes ⟨some condition, [join]⟩

variable {scope field raw}

theorem makes_valuePredicate : field.Makes scope raw (field.valuePredicate scope raw) := by
  rw [valuePredicate]
  split
  next => exact .nothing
  next key hkey =>
    split
    next check hcheck => exact .nullCheck hkey hcheck
    next hcheck =>
      have hasked : NullCheck.isAsked raw = false := by rw [NullCheck.isAsked, hcheck]; rfl
      split
      next relation hrelation =>
        rw [relationPredicate]
        split
        next hcolumns => exact .own hkey hasked hcolumns
        next columns hcolumns =>
          split
          next => exact .nothing
          next join hjoin =>
            rcases relatedPredicate_cases columns join raw with hnone | ⟨_, hmatching, hmade⟩
            · rw [hnone]
              exact .nothing
            · rw [hmade]
              refine .related hasked hcolumns (searchJoin?_eq_some.mpr ?_) hmatching
              exact ⟨relation, columns, key, hrelation, hcolumns, hkey, hjoin⟩
      next hrelation =>
        refine .own hkey hasked ?_
        rw [relatedColumns?, hrelation]

/-- A value joins nothing, or the one table that the field is searched through; and nothing when
it asks for absent values. -/
theorem Makes.joins {predicate : Predicate} (h : field.Makes scope raw predicate) :
    predicate.joins = [] ∨ NullCheck.isAsked raw = false ∧
      ∃ join, field.searchJoin? scope = some join ∧ predicate.joins = [join] := by
  cases h with
  | nothing | nullCheck | own => exact Or.inl rfl
  | related hcheck _ hjoin _ => exact Or.inr ⟨hcheck, _, hjoin, rfl⟩

theorem nodup_joins_valuePredicate (scope : Scope) (field : Field) (raw : String) :
    ((field.valuePredicate scope raw).joins.map Join.asName).Nodup := by
  rcases (@makes_valuePredicate scope field raw).joins with hjoins | ⟨-, join, -, hjoins⟩ <;>
    simp [hjoins]

end Field

end FilterSql

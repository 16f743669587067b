/-
The names that related tables are joined under.

Such a name is the table with underscores for its dots, an underscore, and the column that
the join starts from.  All three parts may have underscores, so two joins may go by one
name in three ways: the same table and column are meant, the tables differ in a dot alone,
or the name is cut at another underscore.
-/
import FilterSql.Proofs.Filter.ValueCases

namespace FilterSql

/-- Lists about a separator are equal part by part, or one is cut at a later separator. -/
theorem append_cons_eq_append_cons_iff {α : Type} {sep : α} {before after first second : List α} :
    before ++ sep :: after = first ++ sep :: second ↔
      (before = first ∧ after = second) ∨
      (∃ middle, first = before ++ sep :: middle ∧ after = middle ++ sep :: second) ∨
      ∃ middle, before = first ++ sep :: middle ∧ second = middle ++ sep :: after := by
  rw [List.append_eq_append_iff]
  constructor
  · rintro (⟨gap, hfirst, hafter⟩ | ⟨gap, hbefore, hsecond⟩)
    · cases gap with
      | nil =>
          rw [List.append_nil] at hfirst
          exact Or.inl ⟨hfirst.symm, (List.cons.inj hafter).2⟩
      | cons c middle =>
          obtain ⟨rfl, htail⟩ := List.cons.inj hafter
          exact Or.inr (Or.inl ⟨middle, hfirst, htail⟩)
    · cases gap with
      | nil =>
          rw [List.append_nil] at hbefore
          exact Or.inl ⟨hbefore, (List.cons.inj hsecond).2.symm⟩
      | cons c middle =>
          obtain ⟨rfl, htail⟩ := List.cons.inj hsecond
          exact Or.inr (Or.inr ⟨middle, hbefore, htail⟩)
  · rintro (⟨rfl, rfl⟩ | ⟨middle, hfirst, hafter⟩ | ⟨middle, hbefore, hsecond⟩)
    · exact Or.inl ⟨[], by simp⟩
    · exact Or.inl ⟨sep :: middle, hfirst, by rw [hafter, List.cons_append]⟩
    · exact Or.inr ⟨sep :: middle, hbefore, by rw [hsecond, List.cons_append]⟩

/-- Joins of one name join one table on one condition. -/
def Join.AgreeByName (one two : Join) : Prop :=
  one.asName = two.asName → one.table = two.table ∧ one.on = two.on

namespace Relation

/-- The related table as it is spelled in the name of a join. -/
def spelledTable (relation : Relation) : List Char :=
  relation.tableChars.map fun c => if c = '.' then '_' else c

/-- The spelled table of one relation goes on in the other, by what the key column of the first
starts with: the tables `crm` and `crm.team` do by the columns `team_id` and `id`. -/
def Overlaps (first second : Relation) (firstKey secondKey : ColumnName) : Prop :=
  ∃ middle, second.spelledTable = first.spelledTable ++ '_' :: middle ∧
    firstKey.column.toList = middle ++ '_' :: secondKey.column.toList

/-- The joins of two relations are told apart by their names: no name is cut at another
underscore, and where table and key column are spelled alike the two are one join. -/
structure ToldApart (first second : Relation) (firstKey secondKey : ColumnName) : Prop where
  notOverlaps : ¬ first.Overlaps second firstKey secondKey
  notOverlapped : ¬ second.Overlaps first secondKey firstKey
  sameKey : first.spelledTable = second.spelledTable → firstKey.column = secondKey.column →
    first.tableChars = second.tableChars ∧ firstKey.table = secondKey.table ∧
    ColumnName.resolve? first.relatedField (joinName first.tableChars firstKey) =
      ColumnName.resolve? second.relatedField (joinName first.tableChars firstKey)

theorem toList_joinName (relation : Relation) (key : ColumnName) :
    (joinName relation.tableChars key).toList =
      relation.spelledTable ++ '_' :: key.column.toList := by
  rw [joinName, String.toList_append, String.toList_append, String.toList_ofList,
    List.append_assoc]
  rfl

theorem joinName_eq_iff {first second : Relation} {firstKey secondKey : ColumnName} :
    joinName first.tableChars firstKey = joinName second.tableChars secondKey ↔
      (first.spelledTable = second.spelledTable ∧ firstKey.column = secondKey.column) ∨
      first.Overlaps second firstKey secondKey ∨ second.Overlaps first secondKey firstKey := by
  rw [← String.toList_inj, toList_joinName, toList_joinName, append_cons_eq_append_cons_iff,
    String.toList_inj]
  rfl

theorem Overlaps.spelledTable_ne {first second : Relation} {firstKey secondKey : ColumnName}
    (h : first.Overlaps second firstKey secondKey) : first.spelledTable ≠ second.spelledTable := by
  obtain ⟨middle, htable, -⟩ := h
  rw [htable, ne_eq, List.self_eq_append_right]
  exact List.cons_ne_nil _ _

section Join

variable {relation : Relation} {key : ColumnName} {kind : JoinKind} {join : Join}

variable (hjoin : relation.join? key kind = some join)
include hjoin

theorem table_of_join? : join.table = relation.tableName := by
  obtain ⟨-, target, -, rfl⟩ := join?_eq_some.mp hjoin
  rfl

theorem asName_of_join? : join.asName = joinName relation.tableChars key := by
  obtain ⟨-, target, -, rfl⟩ := join?_eq_some.mp hjoin
  rfl

/-- No related table is joined under its own name. -/
theorem asName_ne_table : join.asName ≠ join.table := by
  intro hsame
  have hlength := congrArg (fun name : String => name.toList.length) hsame
  rw [asName_of_join? hjoin, table_of_join? hjoin] at hlength
  simp only [toList_joinName, tableName, String.toList_ofList, spelledTable, List.length_append,
    List.length_map, List.length_cons] at hlength
  omega

theorem asName_eq_iff_chars (name : String) :
    join.asName = name ↔ name.toList = relation.spelledTable ++ '_' :: key.column.toList := by
  rw [asName_of_join? hjoin, ← String.toList_inj, toList_joinName, eq_comm]

end Join

section TwoJoins

variable {first second : Relation} {firstKey secondKey : ColumnName}
  {firstKind secondKind : JoinKind} {one two : Join}
  (hone : first.join? firstKey firstKind = some one)
  (htwo : second.join? secondKey secondKind = some two)
include hone htwo

theorem asName_eq_asName_iff :
    one.asName = two.asName ↔
      (first.spelledTable = second.spelledTable ∧ firstKey.column = secondKey.column) ∨
      first.Overlaps second firstKey secondKey ∨ second.Overlaps first secondKey firstKey := by
  rw [asName_of_join? hone, asName_of_join? htwo, joinName_eq_iff]

theorem table_eq_table_iff : one.table = two.table ↔ first.tableChars = second.tableChars := by
  rw [table_of_join? hone, table_of_join? htwo, tableName, tableName, String.ofList_inj]

theorem on_eq_on_iff :
    one.on = two.on ↔
      ColumnName.resolve? first.relatedField one.asName =
          ColumnName.resolve? second.relatedField two.asName ∧ firstKey = secondKey := by
  obtain ⟨-, firstTarget, hfirst, rfl⟩ := join?_eq_some.mp hone
  obtain ⟨-, secondTarget, hsecond, rfl⟩ := join?_eq_some.mp htwo
  rw [hfirst, hsecond]
  simp

theorem agreeByName_iff :
    one.AgreeByName two ↔ first.ToldApart second firstKey secondKey := by
  have hspelled : one.table = two.table → first.spelledTable = second.spelledTable := by
    intro htable
    rw [spelledTable, spelledTable, (table_eq_table_iff hone htwo).mp htable]
  constructor
  · intro hagree
    refine ⟨fun hover => ?_, fun hover => ?_, fun htables hcolumns => ?_⟩
    · have hname := (asName_eq_asName_iff hone htwo).mpr (Or.inr (Or.inl hover))
      exact hover.spelledTable_ne (hspelled (hagree hname).1)
    · have hname := (asName_eq_asName_iff hone htwo).mpr (Or.inr (Or.inr hover))
      exact hover.spelledTable_ne (hspelled (hagree hname).1).symm
    · have hname := (asName_eq_asName_iff hone htwo).mpr (Or.inl ⟨htables, hcolumns⟩)
      obtain ⟨htable, hon⟩ := hagree hname
      obtain ⟨htarget, hkey⟩ := (on_eq_on_iff hone htwo).mp hon
      rw [← hname, asName_of_join? hone] at htarget
      exact ⟨(table_eq_table_iff hone htwo).mp htable, congrArg ColumnName.table hkey, htarget⟩
  · intro hapart hname
    obtain ⟨htables, hcolumns⟩ := ((asName_eq_asName_iff hone htwo).mp hname).resolve_right
      (not_or.mpr ⟨hapart.notOverlaps, hapart.notOverlapped⟩)
    obtain ⟨hchars, hkeyTable, htarget⟩ := hapart.sameKey htables hcolumns
    rw [table_eq_table_iff hone htwo, on_eq_on_iff hone htwo, ← hname, asName_of_join? hone]
    exact ⟨hchars, htarget, congrArg₂ ColumnName.mk hkeyTable hcolumns⟩

end TwoJoins

end Relation

end FilterSql

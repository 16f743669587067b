/-
Predicates of clean names.

A field brings names of its own: its column, the table it relates to, the column that the
relation points to and the columns it is searched by.  Each is cleaned on its way into a
condition or a join.
-/
import FilterSql.Proofs.Filter.NamedColumns
import FilterSql.Proofs.Sql.StatementText

namespace FilterSql

/-- An expression about columns of clean names is clean. -/
theorem Expr.IsAbout.isCleanNode {node : Expr} (hnode : node.IsAbout ColumnName.IsCleanName) :
    node.IsCleanNode := by
  cases node with
  | column name => exact isCleanNode_column.mpr hnode
  | call function arguments =>
      cases hnode
      exact ⟨by simp [ownNames], by simp [function?, Lexeme.functionNames]⟩
  | star | callStar | named => exact hnode.elim
  | value | binary | castText | inList | between | isNull | datePart =>
      exact isCleanNode_of_bare rfl rfl

/-- A join of clean names. -/
structure Join.IsClean (join : Join) : Prop where
  table : IsNameText join.table
  asName : IsNameText join.asName
  on : join.on.Every Expr.IsCleanNode

theorem stable_isClean :
    Predicate.Stable (fun expr => expr.Every Expr.IsCleanNode) Join.IsClean where
  and _ _ hleft hright :=
    (Expr.every_binary _ _ _).mpr ⟨Expr.isCleanNode_of_bare rfl rfl, hleft, hright⟩
  or _ _ hleft hright :=
    (Expr.every_binary _ _ _).mpr ⟨Expr.isCleanNode_of_bare rfl rfl, hleft, hright⟩
  outer _ hjoin := ⟨hjoin.table, hjoin.asName, hjoin.on⟩

namespace Relation

theorem isClean_tableChars (relation : Relation) : FilterSql.IsClean relation.tableChars :=
  (isClean_nameChars _).strip _

theorem isNameText_joinName {table : List Char} (htable : FilterSql.IsClean table)
    {key : ColumnName} (hkey : key.IsCleanName) : IsNameText (joinName table key) := by
  have hdots : FilterSql.IsClean (table.map fun c => if c = '.' then '_' else c) := by
    intro c hc
    obtain ⟨d, hd, rfl⟩ := List.mem_map.mp hc
    split
    · rfl
    · exact htable d hd
  have hmark : IsNameText "_" := by
    intro c hc
    rcases List.mem_singleton.mp hc with rfl
    rfl
  have hstem := isNameText_append ((isNameText_ofList _).mpr hdots) hmark
  exact isNameText_append hstem hkey.2

theorem isClean_of_join? {relation : Relation} {key : ColumnName} (hkey : key.IsCleanName)
    {kind : JoinKind} {join : Join} (hjoin : relation.join? key kind = some join) :
    join.IsClean := by
  obtain ⟨-, target, htarget, rfl⟩ := join?_eq_some.mp hjoin
  have hclean := relation.isClean_tableChars
  have htargetName := ColumnName.isCleanName_of_resolve? htarget
  constructor
  · exact (isNameText_ofList _).mpr hclean
  · exact isNameText_joinName hclean hkey
  · rw [Expr.every_binary]
    exact ⟨Expr.isCleanNode_of_bare rfl rfl, by simpa using htargetName, by simpa using hkey⟩

end Relation

theorem Join.isCleanName_of_column? {join : Join} (hjoin : join.IsClean) {raw : String}
    {name : ColumnName} (hname : join.column? raw = some name) : name.IsCleanName := by
  obtain ⟨target, htarget, rfl⟩ := Option.map_eq_some_iff.mp hname
  have hclean := ColumnName.isCleanName_of_resolve? htarget
  split
  · refine ⟨?_, hclean.2⟩
    intro table htable
    cases htable
    exact hjoin.asName
  · exact hclean

namespace Field

variable {scope : Scope} {field : Field}

theorem isCleanName_of_column? {key : ColumnName} (hkey : field.column? scope = some key) :
    key.IsCleanName := by
  obtain ⟨column, -, hcolumn⟩ := Option.bind_eq_some_iff.mp hkey
  exact ColumnName.isCleanName_of_resolve? hcolumn

theorem isClean_of_searchJoin? {join : Join} (hjoin : field.searchJoin? scope = some join) :
    join.IsClean := by
  obtain ⟨relation, columns, key, -, -, hkey, hmade⟩ := searchJoin?_eq_some.mp hjoin
  exact Relation.isClean_of_join? (isCleanName_of_column? hkey) hmade

theorem Gives.isCleanName {name : ColumnName} (hname : field.Gives scope name) :
    name.IsCleanName := by
  cases hname with
  | own hname => exact isCleanName_of_column? hname
  | related hname =>
      obtain ⟨_, _, related, _, hcolumn⟩ := hname.column
      exact Join.isCleanName_of_column? (isClean_of_searchJoin? hname.searched) hcolumn
  | target _ _ hname => exact ColumnName.isCleanName_of_resolve? hname

/-- Whatever the texts of a field and the value asked for are, the names that come of them
are clean. -/
theorem meets_isClean (scope : Scope) (field : Field) :
    field.Meets (fun expr => expr.Every Expr.IsCleanNode) Join.IsClean scope := by
  apply meets_of_conditions stable_isClean
  · intro name negated hname
    rw [Expr.every_isNull, Expr.every_column, Expr.isCleanNode_column]
    exact ⟨Expr.isCleanNode_of_bare rfl rfl, hname.isCleanName⟩
  · intro name cast raw mode hname expr hexpr
    exact (ColumnName.every_isAbout_of_condition? hname.isCleanName expr hexpr).imp
      fun _ hnode => hnode.isCleanNode
  · exact fun join hjoin => isClean_of_searchJoin? hjoin

end Field

end FilterSql

/-
Names are clean.

Whatever a text from outside holds, the table and the column that are read from it have
only the characters that a name may keep.
-/
import FilterSql.Proofs.Text.Cuts
import FilterSql.Sql.Name

namespace FilterSql

/-- Only letters, digits, underscores and dots. -/
def IsClean (cs : List Char) : Prop :=
  ∀ c ∈ cs, isNameChar c

/-- A text of letters, digits, underscores and dots. -/
def IsNameText (s : String) : Prop :=
  IsClean s.toList

theorem isClean_nameChars (cs : List Char) : IsClean (nameChars cs) := by
  intro c hc
  exact (List.mem_filter.mp hc).2

theorem IsClean.strip {cs : List Char} (hcs : IsClean cs) (p : Char → Bool) :
    IsClean (Text.strip p cs) := by
  intro c hc
  exact hcs c (Text.mem_of_mem_strip hc)

@[simp] theorem isNameText_ofList (cs : List Char) :
    IsNameText (String.ofList cs) ↔ IsClean cs := by
  simp [IsNameText]

theorem isNameText_append {first second : String} (hfirst : IsNameText first)
    (hsecond : IsNameText second) : IsNameText (first ++ second) := by
  intro c hc
  rw [String.toList_append, List.mem_append] at hc
  rcases hc with hc | hc
  · exact hfirst c hc
  · exact hsecond c hc

theorem isNameText_sanitized (raw : String) : IsNameText (sanitized raw) := by
  rw [sanitized, isNameText_ofList]
  exact isClean_nameChars _

theorem sanitized_eq_self {s : String} (hs : IsNameText s) : sanitized s = s := by
  rw [sanitized, nameChars, List.filter_eq_self.mpr hs, String.ofList_toList]

namespace ColumnName

/-- A column whose name and table are clean. -/
def IsCleanName (name : ColumnName) : Prop :=
  (∀ table ∈ name.table, IsNameText table) ∧ IsNameText name.column

theorem isCleanName_split {clean : List Char} (hclean : IsClean clean) :
    (split clean).IsCleanName := by
  have hwhole : IsCleanName ⟨none, String.ofList clean⟩ := by
    simpa [IsCleanName] using hclean
  rw [split]
  split
  next table column hcut =>
    have hparts := Text.cutLast?_eq_some hcut
    split
    · exact hwhole
    · constructor
      · intro _ htable
        cases htable
        rw [isNameText_ofList]
        intro c hc
        exact hclean c (hparts ▸ List.mem_append_left _ hc)
      · rw [isNameText_ofList]
        intro c hc
        exact hclean c (hparts ▸ List.mem_append_right _ (List.mem_cons_of_mem _ hc))
  next => exact hwhole

/-- The column that a text names is clean, whatever the text. -/
theorem isCleanName_of_ofText? {raw : String} {name : ColumnName}
    (hname : ofText? raw = some name) : name.IsCleanName := by
  simp only [ofText?] at hname
  split at hname
  · cases hname
  · cases hname
    exact isCleanName_split ((isClean_nameChars _).strip _)

theorem IsCleanName.withTable {name : ColumnName} (hname : name.IsCleanName) (table : String) :
    (name.withTable table).IsCleanName := by
  rw [ColumnName.withTable]
  split
  · exact hname
  · refine ⟨?_, hname.2⟩
    intro _ htable
    cases htable
    exact isNameText_sanitized table

theorem isCleanName_of_resolve? {raw table : String} {name : ColumnName}
    (hname : resolve? raw table = some name) : name.IsCleanName := by
  simp only [resolve?, Option.map_eq_some_iff] at hname
  obtain ⟨bare, hbare, rfl⟩ := hname
  exact (isCleanName_of_ofText? hbare).withTable table

end ColumnName

end FilterSql

/-
What is read from the text of a name.

A text names a column when a letter, a digit or an underscore is left of it, and then neither
the column nor its table is empty.  It names a table as well when a dot has such a character
on both sides of it.  A dot alone does not make a table: it may stand at an end of what is left.
-/
import FilterSql.Proofs.Sql.CleanName

namespace FilterSql

/-- A letter, a digit or an underscore. -/
def isWordChar (c : Char) : Bool :=
  isNameChar c && !c == '.'

/-- Something other than dots is left of the characters in a name. -/
def HoldsWord (cs : List Char) : Prop :=
  ∃ c ∈ cs, isWordChar c = true

instance (cs : List Char) : Decidable (HoldsWord cs) :=
  decidable_of_iff (cs.any isWordChar = true) List.any_eq_true

theorem holdsWord_iff_nameChars {cs : List Char} :
    HoldsWord cs ↔ ∃ c ∈ nameChars cs, (c == '.') = false := by
  simp only [HoldsWord, isWordChar, nameChars, List.mem_filter, Bool.and_eq_true,
    Bool.not_eq_true', and_assoc]

/-- What is left of a name without the dots at its ends. -/
theorem strip_nameChars_eq_nil_iff {cs : List Char} :
    Text.strip (· == '.') (nameChars cs) = [] ↔ ¬ HoldsWord cs := by
  rw [Text.strip_eq_nil_iff, holdsWord_iff_nameChars]
  simp only [not_exists, not_and, Bool.not_eq_false]

namespace ColumnName

/-- A text spells out a table and a column: something is left of it on both sides of a dot. -/
def SpellsTable (raw : String) : Prop :=
  ∃ before after, raw.toList = before ++ '.' :: after ∧ HoldsWord before ∧ HoldsWord after

/-- Neither the column nor the table of a name is empty. -/
structure IsNamed (name : ColumnName) : Prop where
  table : ∀ table ∈ name.table, table ≠ ""
  column : name.column ≠ ""

/-- A text has a dot, and a column is read from it, but no table. -/
structure LosesTable (raw : String) : Prop where
  namesTable : namesTable raw = true
  holdsWord : HoldsWord raw.toList
  notSpells : ¬ SpellsTable raw

theorem namesTable_iff {raw : String} : namesTable raw = true ↔ '.' ∈ raw.toList := by
  rw [ColumnName.namesTable, List.contains_iff_mem]

theorem namesTable_of_spellsTable {raw : String} (hraw : SpellsTable raw) :
    ColumnName.namesTable raw = true := by
  obtain ⟨before, after, hsplit, -⟩ := hraw
  rw [namesTable_iff, hsplit]
  simp

/-- A dot of a name is kept exactly where the text spells out a table. -/
theorem dot_mem_strip_nameChars_iff {raw : String} :
    '.' ∈ Text.strip (· == '.') (nameChars raw.toList) ↔ SpellsTable raw := by
  rw [Text.mem_strip_iff (by rfl)]
  constructor
  · rintro ⟨before, after, hclean, hbefore, hafter⟩
    obtain ⟨first, rest, hraw, rfl, hrest⟩ := List.filter_eq_append_iff.mp hclean
    obtain ⟨middle, last, rfl, hmiddle, -, rfl⟩ := List.filter_eq_cons_iff.mp hrest
    refine ⟨first ++ middle, last, ?_, ?_, holdsWord_iff_nameChars.mpr hafter⟩
    · rw [hraw, List.append_assoc]
    · obtain ⟨c, hc, hword⟩ := holdsWord_iff_nameChars.mpr hbefore
      exact ⟨c, List.mem_append_left _ hc, hword⟩
  · rintro ⟨before, after, hraw, hbefore, hafter⟩
    refine ⟨nameChars before, nameChars after, ?_, holdsWord_iff_nameChars.mp hbefore,
      holdsWord_iff_nameChars.mp hafter⟩
    rw [hraw, nameChars, List.filter_append, List.filter_cons_of_pos (by rfl)]
    rfl

instance (raw : String) : Decidable (SpellsTable raw) :=
  decidable_of_iff _ dot_mem_strip_nameChars_iff

instance (raw : String) : Decidable (LosesTable raw) :=
  decidable_of_iff
    (ColumnName.namesTable raw = true ∧ HoldsWord raw.toList ∧ ¬ SpellsTable raw)
    ⟨fun h => ⟨h.1, h.2.1, h.2.2⟩, fun h => ⟨h.namesTable, h.holdsWord, h.notSpells⟩⟩

theorem ofText?_eq_none_iff {raw : String} : ofText? raw = none ↔ ¬ HoldsWord raw.toList := by
  rw [← strip_nameChars_eq_nil_iff, ofText?]
  simp

/-- The table and column that characters are read as: the last dot stands between them. -/
inductive Splits (clean : List Char) : ColumnName → Prop
  | bare (hdot : '.' ∉ clean) : Splits clean ⟨none, String.ofList clean⟩
  | dotted {table column : List Char} (hclean : clean = table ++ '.' :: column)
      (htable : table ≠ []) (hcolumn : column ≠ []) (hlast : '.' ∉ column) :
      Splits clean ⟨some (String.ofList table), String.ofList column⟩

/-- Without dots at its ends a name is cut wherever it has one. -/
theorem splits_strip (cs : List Char) :
    Splits (Text.strip (· == '.') cs) (split (Text.strip (· == '.') cs)) := by
  rw [split]
  split
  next table column hcut =>
    have hclean := Text.cutLast?_eq_some hcut
    obtain ⟨⟨c, hc, -⟩, d, hd, -⟩ := Text.exists_of_strip_eq (by rfl) hclean
    have htable : table ≠ [] := List.ne_nil_of_mem hc
    have hcolumn : column ≠ [] := List.ne_nil_of_mem hd
    rw [if_neg (by simp [htable, hcolumn])]
    exact .dotted hclean htable hcolumn (Text.notMem_of_cutLast? hcut)
  next hcut => exact .bare (Text.cutLast?_eq_none_iff.mp hcut)

section Read

variable {raw : String} {name : ColumnName} (hname : ofText? raw = some name)
include hname

theorem splits_of_ofText? : HoldsWord raw.toList ∧
    Splits (Text.strip (· == '.') (nameChars raw.toList)) name := by
  have hword : HoldsWord raw.toList := by
    by_contra hnone
    rw [ofText?_eq_none_iff.mpr hnone] at hname
    cases hname
  rw [ofText?, if_neg (by simpa [strip_nameChars_eq_nil_iff] using hword)] at hname
  cases hname
  exact ⟨hword, splits_strip _⟩

/-- A name has a table exactly when its text spells it out. -/
theorem exists_table_iff_spellsTable : (∃ table, name.table = some table) ↔ SpellsTable raw := by
  rw [← dot_mem_strip_nameChars_iff]
  obtain ⟨-, hsplits⟩ := splits_of_ofText? hname
  generalize Text.strip (· == '.') (nameChars raw.toList) = clean at hsplits ⊢
  cases hsplits with
  | bare hdot => simp [hdot]
  | dotted hclean _ _ _ => simp [hclean]

theorem isNamed_of_ofText? : name.IsNamed := by
  obtain ⟨hword, hsplits⟩ := splits_of_ofText? hname
  have hclean : Text.strip (· == '.') (nameChars raw.toList) ≠ [] :=
    fun hnil => strip_nameChars_eq_nil_iff.mp hnil hword
  generalize Text.strip (· == '.') (nameChars raw.toList) = clean at hsplits hclean
  cases hsplits with
  | bare => exact ⟨by simp, by simpa using hclean⟩
  | dotted _ htable hcolumn _ => exact ⟨by simpa using htable, by simpa using hcolumn⟩

end Read

theorem isNamed_of_resolve? {raw table : String} (htable : sanitized table ≠ "")
    {name : ColumnName} (hname : resolve? raw table = some name) : name.IsNamed := by
  obtain ⟨read, hread, rfl⟩ := Option.map_eq_some_iff.mp hname
  have hnamed := isNamed_of_ofText? hread
  rw [withTable]
  split
  · exact hnamed
  · refine ⟨?_, hnamed.column⟩
    rintro other ⟨⟩
    exact htable

end ColumnName

end FilterSql

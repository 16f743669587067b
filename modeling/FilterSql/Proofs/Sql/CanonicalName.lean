/-
Names are canonical.

What is read from a text is written the same way whatever the text was: the column is a word
without dots, and a table before it does not begin with one.  Such a name, spelled out with a dot
between its table and its column, is read as itself, so reading once more changes nothing.
-/
import FilterSql.Proofs.Sql.ReadName

namespace FilterSql

theorem IsNameText.isWordChar_iff {s : String} (hs : IsNameText s) {c : Char}
    (hc : c ∈ s.toList) : isWordChar c = true ↔ c ≠ '.' := by
  simp [isWordChar, hs c hc]

theorem isNameText_of_forall_isWordChar {s : String}
    (hs : ∀ c ∈ s.toList, isWordChar c = true) : IsNameText s := by
  intro c hc
  exact (Bool.and_eq_true_iff.mp (hs c hc)).1

theorem sanitized_sanitized (raw : String) : sanitized (sanitized raw) = sanitized raw :=
  sanitized_eq_self (isNameText_sanitized raw)

namespace ColumnName

/-- The text that spells out a name: its table, where it has one, and its column. -/
def spelled (name : ColumnName) : String :=
  match name.table with
  | some table => table ++ "." ++ name.column
  | none => name.column

/-- The column is a word, and what stands before it could be the beginning of a name. -/
structure IsCanonical (name : ColumnName) : Prop extends name.IsNamed where
  column_chars : ∀ c ∈ name.column.toList, isWordChar c = true
  table_chars : ∀ table ∈ name.table, IsNameText table
  table_head : ∀ table ∈ name.table, table.toList.head? ≠ some '.'

/-- What is left of a text begins with no dot. -/
theorem head?_strip_ne (cs : List Char) : (Text.strip (· == '.') cs).head? ≠ some '.' := by
  intro hhead
  have hkept := (Text.strip_eq_self_iff.mp (Text.strip_strip (· == '.') cs)).1 '.' hhead
  cases hkept

theorem isCanonical_of_ofText? {raw : String} {name : ColumnName}
    (hname : ofText? raw = some name) : name.IsCanonical := by
  obtain ⟨htables, hcolumn⟩ := isCleanName_of_ofText? hname
  have hhead := head?_strip_ne (nameChars raw.toList)
  obtain ⟨-, hsplits⟩ := splits_of_ofText? hname
  refine ⟨isNamed_of_ofText? hname, fun c hc => ?_, htables, ?_⟩
  · rw [hcolumn.isWordChar_iff hc]
    rintro rfl
    cases hsplits with
    | bare hdot => exact hdot (by simpa using hc)
    | dotted _ _ _ hlast => exact hlast (by simpa using hc)
  · intro table htable
    cases hsplits with
    | bare => cases htable
    | dotted hclean hne _ _ =>
        cases htable
        obtain ⟨c, cs, rfl⟩ := List.exists_cons_of_ne_nil hne
        rw [hclean] at hhead
        simpa using hhead

theorem split_of_notMem {cs : List Char} (hdot : '.' ∉ cs) :
    split cs = ⟨none, String.ofList cs⟩ := by
  rw [split, Text.cutLast?_eq_none_iff.mpr hdot]

theorem split_append_cons {table column : List Char} (htable : table ≠ []) (hcolumn : column ≠ [])
    (hlast : '.' ∉ column) :
    split (table ++ '.' :: column) = ⟨some (String.ofList table), String.ofList column⟩ := by
  simp [split, Text.cutLast?_append_cons hlast, htable, hcolumn]

/-- A clean text without dots at its ends is read as it stands. -/
theorem ofText?_eq_split {raw : String} (hclean : IsNameText raw) (hne : raw.toList ≠ [])
    (hends : Text.strip (· == '.') raw.toList = raw.toList) :
    ofText? raw = some (split raw.toList) := by
  have hkept : nameChars raw.toList = raw.toList := List.filter_eq_self.mpr hclean
  simp only [ofText?, hkept, hends, List.isEmpty_iff, hne, ↓reduceIte]

namespace IsCanonical

variable {table : Option String} {column : String} (h : IsCanonical ⟨table, column⟩)
include h

theorem isNameText_column : IsNameText column :=
  isNameText_of_forall_isWordChar h.column_chars

theorem beq_dot_of_mem_column {c : Char} (hc : c ∈ column.toList) : (c == '.') = false := by
  rw [beq_eq_false_iff_ne, ← h.isNameText_column.isWordChar_iff hc]
  exact h.column_chars c hc

theorem dot_notMem_column : '.' ∉ column.toList := by
  intro hdot
  cases h.beq_dot_of_mem_column hdot

theorem toList_column_ne_nil : column.toList ≠ [] := by
  simpa using h.column

end IsCanonical

theorem toList_spelled (table column : String) :
    (spelled ⟨some table, column⟩).toList = table.toList ++ '.' :: column.toList := by
  simp [spelled]

namespace IsCanonical

variable {name : ColumnName} (h : name.IsCanonical)
include h

theorem isNameText_spelled : IsNameText name.spelled := by
  obtain ⟨_ | table, column⟩ := name
  · exact h.isNameText_column
  · have hdot : IsNameText "." := by simp [IsNameText, IsClean, isNameChar]
    exact isNameText_append (isNameText_append (h.table_chars table rfl) hdot) h.isNameText_column

/-- No dot stands at an end of what a canonical name is spelled as. -/
theorem strip_spelled : Text.strip (· == '.') name.spelled.toList = name.spelled.toList := by
  obtain ⟨_ | table, column⟩ := name
  · exact Text.strip_of_forall fun _ => h.beq_dot_of_mem_column
  · have htable : table.toList ≠ [] := by simpa using h.table table rfl
    rw [toList_spelled, Text.strip_eq_self_iff]
    constructor
    · rw [List.head?_append_of_ne_nil _ htable]
      intro c hc
      rw [beq_eq_false_iff_ne]
      rintro rfl
      exact h.table_head table rfl hc
    · rw [List.getLast?_append_of_ne_nil _ (List.cons_ne_nil _ _),
        List.getLast?_cons_of_ne_nil h.toList_column_ne_nil]
      exact fun c hc => h.beq_dot_of_mem_column (List.mem_of_getLast? hc)

theorem split_spelled : split name.spelled.toList = name := by
  obtain ⟨_ | table, column⟩ := name
  · have hwhole := split_of_notMem h.dot_notMem_column
    rwa [String.ofList_toList] at hwhole
  · have htable : table.toList ≠ [] := by simpa using h.table table rfl
    rw [toList_spelled, split_append_cons htable h.toList_column_ne_nil h.dot_notMem_column,
      String.ofList_toList, String.ofList_toList]

theorem spelled_ne_nil : name.spelled.toList ≠ [] := by
  obtain ⟨_ | table, column⟩ := name
  · exact h.toList_column_ne_nil
  · simp [toList_spelled]

/-- A canonical name is read from the text that spells it out. -/
theorem ofText?_spelled : ofText? name.spelled = some name := by
  rw [ofText?_eq_split h.isNameText_spelled h.spelled_ne_nil h.strip_spelled, h.split_spelled]

end IsCanonical

/-- The names that are read are the canonical ones, and each of them is read back from the text
that spells it out.  A text without letters, digits and underscores gives none, and a table that
the text does not name is what is left of the one that is given. -/
theorem ofText?_canonical (raw : String) :
    (ofText? raw = none ↔ ¬ HoldsWord raw.toList) ∧
      (∀ name, ofText? raw = some name → name.IsCanonical ∧ ofText? name.spelled = some name) ∧
      (∀ name : ColumnName, name.IsCanonical ↔ ofText? name.spelled = some name) ∧
      sanitized (sanitized raw) = sanitized raw ∧
      ∀ table, resolve? raw table = (ofText? raw).map fun name =>
        ⟨some (name.table.getD (sanitized table)), name.column⟩ := by
  refine ⟨ofText?_eq_none_iff, ?_, ?_, sanitized_sanitized raw, ?_⟩
  · intro name hname
    have hcanonical := isCanonical_of_ofText? hname
    exact ⟨hcanonical, hcanonical.ofText?_spelled⟩
  · intro name
    exact ⟨IsCanonical.ofText?_spelled, isCanonical_of_ofText?⟩
  · intro table
    rw [resolve?]
    congr 1
    funext name
    rcases name with ⟨own, column⟩
    cases own <;> rfl

end ColumnName

namespace CanonicalName

/-- Dots at the ends and side by side, with characters between them that no name has. -/
def dotted : String :=
  ".-.crm.;.te am.'id'.--."

theorem ofText?_dotted :
    ColumnName.ofText? dotted = some ⟨some "crm..team", "id"⟩ ∧
      ColumnName.IsCanonical ⟨some "crm..team", "id"⟩ ∧
      ColumnName.ofText? "crm..team.id" = some ⟨some "crm..team", "id"⟩ := by
  have hread : ColumnName.ofText? dotted = some ⟨some "crm..team", "id"⟩ := by decide
  obtain ⟨-, hcanonical, -⟩ := ColumnName.ofText?_canonical dotted
  exact ⟨hread, hcanonical _ hread⟩

end CanonicalName

end FilterSql

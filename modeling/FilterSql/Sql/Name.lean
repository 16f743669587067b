/-
Names of tables and columns.

A name that comes from outside keeps only ASCII letters and digits, underscores and dots.
The part after the last dot is the column, what stands before it the table.
-/
import FilterSql.Text.Basic

namespace FilterSql

/-- The characters that a name may keep. -/
def isNameChar (c : Char) : Bool :=
  c.isAlphanum || c == '_' || c == '.'

/-- The characters of a name that are kept. -/
def nameChars (cs : List Char) : List Char :=
  cs.filter isNameChar

/-- A text without the characters that no name has. -/
def sanitized (raw : String) : String :=
  String.ofList (nameChars raw.toList)

/-- A column, with the table it belongs to where that is said. -/
structure ColumnName where
  table : Option String
  column : String
deriving DecidableEq, Repr

namespace ColumnName

/-- The table and column of clean characters, cut at the last dot. -/
def split (clean : List Char) : ColumnName :=
  match Text.cutLast? '.' clean with
  | some (table, column) =>
      if table.isEmpty || column.isEmpty then ⟨none, String.ofList clean⟩
      else ⟨some (String.ofList table), String.ofList column⟩
  | none => ⟨none, String.ofList clean⟩

/-- The column that a text names; none when nothing of the text is left. -/
def ofText? (raw : String) : Option ColumnName :=
  let clean := Text.strip (· == '.') (nameChars raw.toList)
  if clean.isEmpty then none else some (split clean)

/-- The column with a table for one that has none. -/
def withTable (name : ColumnName) (table : String) : ColumnName :=
  match name.table with
  | some _ => name
  | none => ⟨some (sanitized table), name.column⟩

/-- The column that a text names, of the given table unless the text names another. -/
def resolve? (raw table : String) : Option ColumnName :=
  (ofText? raw).map (·.withTable table)

/-- Whether a text has a dot, as one that names a table has. -/
def namesTable (raw : String) : Bool :=
  raw.toList.contains '.'

end ColumnName

end FilterSql

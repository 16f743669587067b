/-
What the text of a statement is put together from.

A statement of clean names is written with a fixed stock of words and marks, with
placeholders, and with names in quotes.  No text from outside stands in it unquoted, and
none can end a quote early.
-/
import Mathlib.Algebra.Group.Even
import Mathlib.Algebra.Group.Nat.Even
import FilterSql.Proofs.Sql.CleanName
import FilterSql.Sql.Template

namespace FilterSql

/-- A piece of the text of a statement. -/
inductive Lexeme
  /-- A keyword, an operator or a punctuation mark. -/
  | word (text : String)
  | placeholder (index : Nat)
  /-- A name, to be written in quotes. -/
  | name (text : String)

namespace Lexeme

/-- The names of the functions that conditions and statements call. -/
def functionNames : List String :=
  ["LOWER", "COUNT"]

/-- The keywords of statements. -/
def keywords : List String :=
  ["SELECT", "FROM", "AS", "INNER", "LEFT", "RIGHT", "FULL", "OUTER", "JOIN", "ON", "WHERE",
    "AND", "OR", "LIKE", "NOT", "IN", "BETWEEN", "IS", "NULL", "CAST", "TEXT", "CHAR", "EXTRACT",
    "YEAR", "MONTH", "DAY", "INTEGER", "ORDER", "BY", "ASC", "DESC", "LIMIT", "OFFSET"]

/-- The operators, the punctuation and the blank. -/
def marks : List String :=
  [" ", ",", ".", "*", "(", ")", "=", "<>", "<", "<=", ">", ">="]

/-- All texts that stand in a statement outside of placeholders and quotes. -/
def words : List String :=
  keywords ++ functionNames ++ marks

/-- A word of the stock, any placeholder, or a clean name. -/
def IsAllowed : Lexeme → Prop
  | word text => text ∈ words
  | placeholder _ => True
  | name text => IsNameText text

variable (dialect : Dialect)

/-- How a piece is written. -/
def text : Lexeme → String
  | word text => text
  | placeholder index => dialect.placeholder index
  | name text => dialect.quoteName text

end Lexeme

variable (dialect : Dialect)

/-- A text that consists of allowed pieces. -/
def IsStatementText (s : String) : Prop :=
  ∃ lexemes : List Lexeme,
    (∀ lexeme ∈ lexemes, lexeme.IsAllowed) ∧ s = String.join (lexemes.map (Lexeme.text dialect))

section StatementText

variable {dialect}

theorem IsStatementText.append {first second : String} (hfirst : IsStatementText dialect first)
    (hsecond : IsStatementText dialect second) : IsStatementText dialect (first ++ second) := by
  obtain ⟨firsts, hfirsts, rfl⟩ := hfirst
  obtain ⟨seconds, hseconds, rfl⟩ := hsecond
  refine ⟨firsts ++ seconds, ?_, by rw [List.map_append, String.join_append]⟩
  intro lexeme hlexeme
  rcases List.mem_append.mp hlexeme with hlexeme | hlexeme
  · exact hfirsts lexeme hlexeme
  · exact hseconds lexeme hlexeme

theorem IsStatementText.of_lexeme (lexeme : Lexeme) (hlexeme : lexeme.IsAllowed) :
    IsStatementText dialect (lexeme.text dialect) :=
  ⟨[lexeme], by simpa using hlexeme, by simp [String.join]⟩

theorem isStatementText_empty : IsStatementText dialect "" :=
  ⟨[], by simp, rfl⟩

theorem isStatementText_join (texts : List String)
    (htexts : ∀ text ∈ texts, text ∈ Lexeme.words) : IsStatementText dialect (String.join texts) := by
  refine ⟨texts.map Lexeme.word, ?_, ?_⟩
  · intro lexeme hlexeme
    obtain ⟨text, htext, rfl⟩ := List.mem_map.mp hlexeme
    exact htexts text htext
  · have htext : Lexeme.text dialect ∘ Lexeme.word = id := rfl
    rw [List.map_map, htext, List.map_id]

theorem isStatementText_quoteName {name : String} (hname : IsNameText name) :
    IsStatementText dialect (dialect.quoteName name) :=
  IsStatementText.of_lexeme (.name name) hname

theorem isStatementText_qualifierText {table : Option String}
    (htable : ∀ name ∈ table, IsNameText name) :
    IsStatementText dialect (qualifierText dialect table) := by
  cases table with
  | none => exact isStatementText_empty
  | some name =>
      have hdot : IsStatementText dialect "." :=
        isStatementText_join ["."] (by decide)
      exact (isStatementText_quoteName (htable name rfl)).append hdot

theorem isStatementText_columnText {name : ColumnName} (hname : name.IsCleanName) :
    IsStatementText dialect (name.text dialect) :=
  (isStatementText_qualifierText hname.1).append (isStatementText_quoteName hname.2)

end StatementText

section Characters

/-- What could open or escape a literal, end a statement, or start a comment. -/
def harmful : List Char :=
  ['\'', ';', '-', '/', '\\']

variable {dialect : Dialect}

theorem Text.doubled_of_not_mem {quote : Char} {cs : List Char} (hquote : quote ∉ cs) :
    Text.doubled quote cs = cs := by
  induction cs with
  | nil => rfl
  | cons c cs ih =>
      rw [List.mem_cons, not_or] at hquote
      rw [Text.doubled, if_neg (Ne.symm hquote.1), ih hquote.2]

theorem quoteName_toList {name : String} (hname : IsNameText name) :
    (dialect.quoteName name).toList = dialect.quote :: name.toList ++ [dialect.quote] := by
  have hquote : dialect.quote ∉ name.toList := by
    intro hmem
    have hallowed := hname _ hmem
    cases dialect <;> exact absurd hallowed (by decide)
  simp [Dialect.quoteName, Text.quoted, Text.doubled_of_not_mem hquote]

theorem placeholder_toList {index : Nat} {c : Char}
    (hc : c ∈ (dialect.placeholder index).toList) : c = '$' ∨ c = '?' ∨ c.isDigit := by
  cases dialect with
  | postgres =>
      simp only [Dialect.placeholder, String.toList_append, String.toList_ofList,
        List.mem_append] at hc
      rcases hc with hc | hc
      · exact Or.inl (List.mem_singleton.mp hc)
      · exact Or.inr (Or.inr (Nat.isDigit_of_mem_toDigits (by decide) (by decide) hc))
  | mySql =>
      have hmark : (Dialect.mySql.placeholder index).toList = ['?'] := by
        simp [Dialect.placeholder]
      rw [hmark, List.mem_singleton] at hc
      exact Or.inr (Or.inl hc)

theorem not_isNameChar_of_mem_harmful (dialect : Dialect) {c : Char} (hc : c ∈ harmful) :
    isNameChar c = false ∧ c ≠ '$' ∧ c ≠ '?' ∧ c ≠ dialect.quote := by
  have hall : harmful.all (fun c => !isNameChar c && c != '$' && c != '?' &&
      c != Dialect.postgres.quote && c != Dialect.mySql.quote) = true := by decide
  have hapart := List.all_eq_true.mp hall c hc
  simp only [Bool.and_eq_true, Bool.not_eq_true', bne_iff_ne] at hapart
  obtain ⟨⟨⟨⟨hname, hdollar⟩, hmark⟩, hpostgres⟩, hmySql⟩ := hapart
  cases dialect with
  | postgres => exact ⟨hname, hdollar, hmark, hpostgres⟩
  | mySql => exact ⟨hname, hdollar, hmark, hmySql⟩

theorem Lexeme.IsAllowed.not_mem_harmful {lexeme : Lexeme} (hlexeme : lexeme.IsAllowed)
    {c : Char} (hc : c ∈ (lexeme.text dialect).toList) : c ∉ harmful := by
  intro hharmful
  obtain ⟨hname, hdollar, hmark, hquote⟩ := not_isNameChar_of_mem_harmful dialect hharmful
  cases lexeme with
  | word text =>
      have hall : (words.all fun word => word.toList.all fun c => !harmful.contains c) = true := by
        decide
      have hword := List.all_eq_true.mp (List.all_eq_true.mp hall text hlexeme) c hc
      simp [hharmful] at hword
  | placeholder index =>
      rcases placeholder_toList hc with rfl | rfl | hdigit
      · exact hdollar rfl
      · exact hmark rfl
      · simp [isNameChar, Char.isAlphanum, hdigit] at hname
  | name text =>
      rw [Lexeme.text, quoteName_toList hlexeme, List.cons_append, List.mem_cons, List.mem_append,
        List.mem_singleton] at hc
      rcases hc with hc | hc | hc
      · exact hquote hc
      · exact absurd (hlexeme c hc) (by simp [hname])
      · exact hquote hc

theorem Lexeme.IsAllowed.even_count_quote {lexeme : Lexeme} (hlexeme : lexeme.IsAllowed) :
    Even ((lexeme.text dialect).toList.count dialect.quote) := by
  cases lexeme with
  | word text =>
      have hwords : ∀ word ∈ words, dialect.quote ∉ word.toList := by
        cases dialect <;> decide
      rw [Lexeme.text, List.count_eq_zero_of_not_mem (hwords text hlexeme)]
      exact Even.zero
  | placeholder index =>
      have hquote : dialect.quote ∉ (dialect.placeholder index).toList := by
        intro hmem
        have hdigits := placeholder_toList hmem
        revert hdigits
        cases dialect <;> decide
      rw [Lexeme.text, List.count_eq_zero_of_not_mem hquote]
      exact Even.zero
  | name text =>
      have hquote : dialect.quote ∉ text.toList := by
        intro hmem
        have hallowed := hlexeme _ hmem
        cases dialect <;> exact absurd hallowed (by decide)
      rw [Lexeme.text, quoteName_toList hlexeme, List.cons_append, List.count_cons_self,
        List.count_append, List.count_eq_zero_of_not_mem hquote, List.count_singleton_self]
      exact ⟨1, rfl⟩

/-- No harmful character stands in the text of a statement. -/
theorem IsStatementText.not_mem_harmful {s : String} (hs : IsStatementText dialect s) :
    ∀ c ∈ s.toList, c ∉ harmful := by
  obtain ⟨lexemes, hallowed, rfl⟩ := hs
  intro c hc
  rw [String.toList_join, List.mem_flatMap] at hc
  obtain ⟨text, htext, hc⟩ := hc
  obtain ⟨lexeme, hlexeme, rfl⟩ := List.mem_map.mp htext
  exact (hallowed lexeme hlexeme).not_mem_harmful hc

/-- Every quote in the text of a statement is closed. -/
theorem IsStatementText.even_count_quote {s : String} (hs : IsStatementText dialect s) :
    Even (s.toList.count dialect.quote) := by
  obtain ⟨lexemes, hallowed, rfl⟩ := hs
  rw [String.toList_join]
  induction lexemes with
  | nil => exact Even.zero
  | cons lexeme lexemes ih =>
      rw [List.map_cons, List.flatMap_cons, List.count_append]
      apply Even.add
      · exact (hallowed lexeme List.mem_cons_self).even_count_quote
      · exact ih fun other hother => hallowed other (List.mem_cons_of_mem _ hother)

end Characters

end FilterSql

/-
Texts between quotes, read back.

A reader of a quoted text goes from quote to quote: two in a row are one quote of the text, and
one alone ends it.  Where the runs of quotes in the text and the one that ends it meet, only
what follows can tell them apart, so everything here is said of a quoted text together with
the rest of the statement.
-/
import FilterSql.Sql.Dialect
import FilterSql.Value

namespace FilterSql

namespace Text

/-- What stands before the first quote that is not doubled, each doubled quote taken for one,
and what stands after it; nothing when the text has no such quote. -/
def readDoubled? (quote : Char) : List Char → Option (List Char × List Char)
  | [] => none
  | [c] => if c = quote then some ([], []) else none
  | c :: d :: cs =>
      if c = quote then
        if d = quote then
          (readDoubled? quote cs).map fun (text, rest) => (quote :: text, rest)
        else some ([], d :: cs)
      else (readDoubled? quote (d :: cs)).map fun (text, rest) => (c :: text, rest)

/-- The text between quotes that `text` begins with, and what stands after it. -/
def readQuoted? (quote : Char) (text : String) : Option (String × String) :=
  match text.toList with
  | [] => none
  | c :: cs =>
      if c = quote then
        (readDoubled? quote cs).map fun (name, rest) => (String.ofList name, String.ofList rest)
      else none

/-- A way to write texts between quotes so that a reader sees where each of them ends. -/
structure IsSelfDelimiting (quote : Char) (write : String → String) : Prop where
  /-- What was written is read, and all that follows is left, if no other quote follows. -/
  read : ∀ text rest : String, rest.toList.head? ≠ some quote →
    readQuoted? quote (write text ++ rest) = some (text, rest)
  /-- What is read was written, and no other quote follows. -/
  written : ∀ whole text rest : String, readQuoted? quote whole = some (text, rest) →
    whole = write text ++ rest ∧ rest.toList.head? ≠ some quote
  /-- A statement is a written text and a rest without a quote in front in one way alone. -/
  append_inj : ∀ first second rest others : String,
    rest.toList.head? ≠ some quote → others.toList.head? ≠ some quote →
    write first ++ rest = write second ++ others → first = second ∧ rest = others
  /-- Different texts are written differently. -/
  inj : ∀ first second : String, write first = write second → first = second

section Reader

variable {quote : Char}

theorem readDoubled?_quote_quote (cs : List Char) :
    readDoubled? quote (quote :: quote :: cs) =
      (readDoubled? quote cs).map fun (text, rest) => (quote :: text, rest) := by
  rw [readDoubled?, if_pos rfl, if_pos rfl]

theorem readDoubled?_quote {rest : List Char} (hrest : rest.head? ≠ some quote) :
    readDoubled? quote (quote :: rest) = some ([], rest) := by
  cases rest with
  | nil => rw [readDoubled?, if_pos rfl]
  | cons d ds =>
      have hd : d ≠ quote := fun hd => hrest (congrArg some hd)
      rw [readDoubled?, if_pos rfl, if_neg hd]

theorem readDoubled?_cons {c : Char} (hc : c ≠ quote) (cs : List Char) :
    readDoubled? quote (c :: cs) =
      (readDoubled? quote cs).map fun (text, rest) => (c :: text, rest) := by
  cases cs with
  | nil => simp [readDoubled?, hc]
  | cons d ds => rw [readDoubled?, if_neg hc]

/-- The quotes of the text come in pairs before the one that ends it, so the reader is never
left with half of a pair. -/
theorem readDoubled?_doubled_append (text : List Char) {rest : List Char}
    (hrest : rest.head? ≠ some quote) :
    readDoubled? quote (doubled quote text ++ quote :: rest) = some (text, rest) := by
  induction text with
  | nil => exact readDoubled?_quote hrest
  | cons c cs ih =>
      rw [doubled]
      split
      next hc =>
        rw [List.cons_append, List.cons_append, readDoubled?_quote_quote, ih, hc]
        rfl
      next hc =>
        rw [List.cons_append, readDoubled?_cons hc, ih]
        rfl

theorem eq_of_readDoubled? {cs text rest : List Char}
    (hread : readDoubled? quote cs = some (text, rest)) :
    cs = doubled quote text ++ quote :: rest ∧ rest.head? ≠ some quote := by
  induction cs using readDoubled?.induct quote generalizing text with
  | case1 => cases hread
  | case2 =>
      rw [readDoubled?, if_pos rfl] at hread
      cases hread
      exact ⟨rfl, by simp⟩
  | case3 c hc =>
      rw [readDoubled?, if_neg hc] at hread
      cases hread
  | case4 cs ih =>
      simp only [readDoubled?_quote_quote, Option.map_eq_some_iff, Prod.exists] at hread
      obtain ⟨tail, after, htail, hpair⟩ := hread
      cases hpair
      obtain ⟨hcs, hrest⟩ := ih htail
      exact ⟨by rw [doubled, if_pos rfl, hcs]; rfl, hrest⟩
  | case5 d cs hd =>
      have hhead : (d :: cs).head? ≠ some quote := fun hhead => hd (Option.some.inj hhead)
      rw [readDoubled?_quote hhead] at hread
      cases hread
      exact ⟨rfl, hhead⟩
  | case6 c d cs hc ih =>
      simp only [readDoubled?_cons hc, Option.map_eq_some_iff, Prod.exists] at hread
      obtain ⟨tail, after, htail, hpair⟩ := hread
      cases hpair
      obtain ⟨hcs, hrest⟩ := ih htail
      exact ⟨by rw [doubled, if_neg hc, hcs]; rfl, hrest⟩

/-- Texts with their quotes doubled are told apart up to the quote that ends them, as long as
no other quote follows it. -/
theorem doubled_append_inj {first second rest others : List Char}
    (hrest : rest.head? ≠ some quote) (hothers : others.head? ≠ some quote)
    (hsame : doubled quote first ++ quote :: rest = doubled quote second ++ quote :: others) :
    first = second ∧ rest = others := by
  have hread : readDoubled? quote (doubled quote second ++ quote :: others) =
      some (first, rest) := by
    rw [← hsame]
    exact readDoubled?_doubled_append first hrest
  rw [readDoubled?_doubled_append second hothers] at hread
  cases hread
  exact ⟨rfl, rfl⟩

theorem toList_quoted_append (text rest : String) :
    (quoted quote text ++ rest).toList =
      quote :: (doubled quote text.toList ++ quote :: rest.toList) := by
  simp [quoted]

theorem readQuoted?_eq_some_iff {whole text rest : String} :
    readQuoted? quote whole = some (text, rest) ↔
      whole = quoted quote text ++ rest ∧ rest.toList.head? ≠ some quote := by
  constructor
  · intro hread
    rw [readQuoted?] at hread
    split at hread
    next => cases hread
    next c cs hwhole =>
      split at hread
      next hc =>
        simp only [Option.map_eq_some_iff, Prod.exists] at hread
        obtain ⟨chars, after, hchars, hpair⟩ := hread
        cases hpair
        obtain ⟨hcs, hafter⟩ := eq_of_readDoubled? hchars
        refine ⟨String.toList_inj.mp ?_, by rwa [String.toList_ofList]⟩
        rw [hwhole, hc, hcs, toList_quoted_append, String.toList_ofList, String.toList_ofList]
      next => cases hread
  · rintro ⟨rfl, hrest⟩
    simp only [readQuoted?, toList_quoted_append, if_pos,
      readDoubled?_doubled_append text.toList hrest, Option.map_some, String.ofList_toList]

theorem readQuoted?_quoted_append (text : String) {rest : String}
    (hrest : rest.toList.head? ≠ some quote) :
    readQuoted? quote (quoted quote text ++ rest) = some (text, rest) :=
  readQuoted?_eq_some_iff.mpr ⟨rfl, hrest⟩

theorem quoted_append_inj {first second rest others : String}
    (hrest : rest.toList.head? ≠ some quote) (hothers : others.toList.head? ≠ some quote)
    (hsame : quoted quote first ++ rest = quoted quote second ++ others) :
    first = second ∧ rest = others := by
  have hread := readQuoted?_quoted_append first hrest
  rw [hsame, readQuoted?_quoted_append second hothers] at hread
  cases hread
  exact ⟨rfl, rfl⟩

theorem quoted_inj {first second : String} (hsame : quoted quote first = quoted quote second) :
    first = second := by
  have hnothing : "".toList.head? ≠ some quote := by simp
  exact (quoted_append_inj hnothing hnothing (congrArg (· ++ "") hsame)).1

theorem isSelfDelimiting_quoted (quote : Char) : IsSelfDelimiting quote (quoted quote) where
  read text _ hrest := readQuoted?_quoted_append text hrest
  written _ _ _ hread := readQuoted?_eq_some_iff.mp hread
  append_inj _ _ _ _ hrest hothers hsame := quoted_append_inj hrest hothers hsame
  inj _ _ hsame := quoted_inj hsame

end Reader

end Text

/-- Names in the quotes of a database, and texts as literals, show where they end. -/
theorem isSelfDelimiting_quoteName_literal :
    (∀ dialect : Dialect, Text.IsSelfDelimiting dialect.quote dialect.quoteName) ∧
      Text.IsSelfDelimiting '\'' fun s => (Value.string s).literal :=
  ⟨fun dialect => Text.isSelfDelimiting_quoted dialect.quote, Text.isSelfDelimiting_quoted '\''⟩

namespace QuotedText

/-- Quotes at both ends of a name and in it, no name at all, and a text that is one quote. -/
theorem isSelfDelimiting_quotes :
    Text.readQuoted? '"' (Dialect.postgres.quoteName "\"a\"\"b\"" ++ " = 1") =
        some ("\"a\"\"b\"", " = 1") ∧
      Text.readQuoted? '\x60' (Dialect.mySql.quoteName "" ++ ".x") = some ("", ".x") ∧
      Text.readQuoted? '\'' ((Value.string "\x27").literal ++ ")") = some ("\x27", ")") ∧
      Dialect.postgres.quoteName "\"" ≠ Dialect.postgres.quoteName "\"\"" := by
  obtain ⟨hnames, htexts⟩ := isSelfDelimiting_quoteName_literal
  refine ⟨(hnames .postgres).read _ _ (by decide), (hnames .mySql).read _ _ (by decide),
    htexts.read _ _ (by decide), ?_⟩
  intro hsame
  exact absurd ((hnames .postgres).inj _ _ hsame) (by decide)

end QuotedText

end FilterSql

/-
Signs that can be read back from a text.

A sign is a word of a fixed stock, a name in quotes with the word after it, or a value.  No
word of the stock begins another one, none opens with a quote or as a placeholder does, and a
quote inside a name is doubled: a text and its parameters are those of one list of signs
alone.
-/
import FilterSql.Proofs.Sql.QuotedText
import FilterSql.Sql.Template

namespace FilterSql

/-- A sign that conditions are written with. -/
inductive Sign
  | word (text : String)
  /-- A name in quotes, and the word after it. -/
  | name (text after : String)
  | value (v : Value)

namespace Sign

/-- The words that conditions are written with. -/
def words : List String :=
  ["(", ")", ".", ", ", " = ", " <> ", " < ", " <= ", " > ", " >= ", " LIKE ", " AND ", " OR ",
    "LOWER(", "CAST(", " AS TEXT)", " AS CHAR)", " AS INTEGER)", "EXTRACT(YEAR FROM ",
    "EXTRACT(MONTH FROM ", "EXTRACT(DAY FROM ", "YEAR(", "MONTH(", "DAY(", " IN (", " NOT IN (",
    " BETWEEN ", " NOT BETWEEN ", " IS NULL", " IS NOT NULL"]

/-- The words of the sign are of the stock. -/
def IsAllowed : Sign → Prop
  | word text => text ∈ words
  | name _ after => after ∈ words
  | value _ => True

/-- The values of the sign. -/
def values : Sign → List Value
  | value v => [v]
  | _ => []

/-- What can be told of a sign from its first character. -/
inductive Kind
  | word
  | name
  | value

/-- The kind of the sign. -/
def kind : Sign → Kind
  | word _ => .word
  | name _ _ => .name
  | value _ => .value

variable (dialect : Dialect)

/-- The kind of the signs that open with a character. -/
def kindOf (c : Char) : Kind :=
  if c = dialect.quote then .name else if c = '$' ∨ c = '?' then .value else .word

/-- The sign as a piece of a template. -/
def piece : Sign → Piece
  | word text => .text text
  | name text after => .text (dialect.quoteName text ++ after)
  | value v => .value v

/-- How the sign is written when this is the index of the next value. -/
def chars (index : Nat) : Sign → List Char
  | word text => text.toList
  | name text after => (dialect.quoteName text).toList ++ after.toList
  | value _ => (dialect.placeholder index).toList

variable {dialect}

theorem toList_quoteName (name : String) :
    (dialect.quoteName name).toList =
      dialect.quote :: (Text.doubled dialect.quote name.toList ++ [dialect.quote]) := by
  simp [Dialect.quoteName, Text.quoted]

theorem exists_placeholder (dialect : Dialect) (index : Nat) :
    ∃ cs, (dialect.placeholder index).toList = '$' :: cs ∨
      (dialect.placeholder index).toList = '?' :: cs := by
  cases dialect with
  | postgres => exact ⟨_, .inl (String.toList_append ..)⟩
  | mySql => exact ⟨[], .inr (by simp [Dialect.placeholder])⟩

/-- A word is there, and opens neither with a quote nor as a placeholder does. -/
theorem kindOf_of_mem_words {text : String} (htext : text ∈ words) :
    ∃ c cs, text.toList = c :: cs ∧ kindOf dialect c = .word := by
  have hall : (words.all fun text => text.toList.head?.any fun c =>
      c != '"' && c != '\x60' && c != '$' && c != '?') = true := by decide +kernel
  have hfirst := List.all_eq_true.mp hall text htext
  obtain ⟨c, hc, hapart⟩ := (Option.any_eq_true _ _).mp hfirst
  simp only [Bool.and_eq_true, bne_iff_ne] at hapart
  obtain ⟨⟨⟨hquote, hmark⟩, hdollar⟩, hplace⟩ := hapart
  obtain ⟨cs, hcs⟩ := List.head?_eq_some_iff.mp hc
  refine ⟨c, cs, hcs, ?_⟩
  cases dialect <;> simp [kindOf, Dialect.quote, hquote, hmark, hdollar, hplace]

/-- The first character tells the kind of a sign. -/
theorem exists_chars {sign : Sign} (hsign : sign.IsAllowed) (index : Nat) :
    ∃ c cs, sign.chars dialect index = c :: cs ∧ kindOf dialect c = sign.kind := by
  cases sign with
  | word text => exact kindOf_of_mem_words hsign
  | name text after =>
      refine ⟨dialect.quote, _, by rw [chars, toList_quoteName]; rfl, ?_⟩
      simp [kindOf, kind]
  | value v =>
      obtain ⟨cs, hchars | hchars⟩ := exists_placeholder dialect index
      · exact ⟨'$', cs, hchars, by cases dialect <;> rfl⟩
      · exact ⟨'?', cs, hchars, by cases dialect <;> rfl⟩

/-- No word of the stock begins another one. -/
theorem word_append_inj {first second : String} (hfirst : first ∈ words) (hsecond : second ∈ words)
    {rest others : List Char} (hsame : first.toList ++ rest = second.toList ++ others) :
    first = second ∧ rest = others := by
  have hfree : ∀ first ∈ words, ∀ second ∈ words, first.toList <+: second.toList →
      first = second := by decide +kernel
  have heq : first = second := by
    rcases List.prefix_or_prefix_of_prefix (List.prefix_append first.toList rest)
      (hsame ▸ List.prefix_append second.toList others) with hprefix | hprefix
    · exact hfree first hfirst second hsecond hprefix
    · exact (hfree second hsecond first hfirst hprefix).symm
  subst heq
  exact ⟨rfl, List.append_cancel_left hsame⟩

/-- A name in quotes ends where its word begins. -/
theorem name_append_inj {first second after other : String} (hafter : after ∈ words)
    (hother : other ∈ words) {rest others : List Char}
    (hsame : (dialect.quoteName first).toList ++ (after.toList ++ rest) =
      (dialect.quoteName second).toList ++ (other.toList ++ others)) :
    first = second ∧ after = other ∧ rest = others := by
  have hopen : ∀ {text : String} (cs : List Char), text ∈ words →
      (text.toList ++ cs).head? ≠ some dialect.quote := by
    intro text cs htext hhead
    obtain ⟨c, ds, hds, hkind⟩ := @kindOf_of_mem_words dialect text htext
    rw [hds] at hhead
    cases hhead
    simp [kindOf] at hkind
  simp only [toList_quoteName, List.cons_append, List.append_assoc, List.nil_append] at hsame
  obtain ⟨hnames, hrests⟩ := Text.doubled_append_inj (hopen rest hafter) (hopen others hother)
    (List.tail_eq_of_cons_eq hsame)
  obtain ⟨hwords, hrests⟩ := word_append_inj hafter hother hrests
  exact ⟨String.toList_injective hnames, hwords, hrests⟩

/-- A sign is read back from what is written, up to what its value is. -/
theorem chars_append_inj {first second : Sign} (hfirst : first.IsAllowed)
    (hsecond : second.IsAllowed) {index : Nat} {rest others : List Char}
    (hsame : first.chars dialect index ++ rest = second.chars dialect index ++ others) :
    (first.values = second.values → first = second) ∧
      first.values.length = second.values.length ∧ rest = others := by
  obtain ⟨c, cs, hcs, hckind⟩ := @exists_chars dialect first hfirst index
  obtain ⟨d, ds, hds, hdkind⟩ := @exists_chars dialect second hsecond index
  have hkind : first.kind = second.kind := by
    rw [hcs, hds] at hsame
    rw [← hckind, ← hdkind, List.head_eq_of_cons_eq hsame]
  cases first <;> cases second <;> cases hkind
  case word.word first second =>
    obtain ⟨rfl, hrests⟩ := word_append_inj hfirst hsecond hsame
    exact ⟨fun _ => rfl, rfl, hrests⟩
  case name.name first after second other =>
    simp only [chars, List.append_assoc] at hsame
    obtain ⟨rfl, rfl, hrests⟩ := name_append_inj hfirst hsecond hsame
    exact ⟨fun _ => rfl, rfl, hrests⟩
  case value.value first second =>
    refine ⟨?_, rfl, List.append_cancel_left hsame⟩
    intro hvalues
    rw [List.head_eq_of_cons_eq hvalues]

theorem toList_sqlFrom_cons (sign : Sign) (signs : List Sign) (index : Nat) :
    (Template.sqlFrom dialect index ((sign :: signs).map (piece dialect))).toList =
      sign.chars dialect index ++
        (Template.sqlFrom dialect (index + sign.values.length)
          (signs.map (piece dialect))).toList := by
  cases sign <;> simp [piece, Template.sqlFrom, chars, values]

theorem params_cons (sign : Sign) (signs : List Sign) :
    Template.params ((sign :: signs).map (piece dialect)) =
      sign.values ++ Template.params (signs.map (piece dialect)) := by
  cases sign <;> rfl

theorem sqlFrom_cons_ne_empty {sign : Sign} (hsign : sign.IsAllowed) (signs : List Sign)
    (index : Nat) :
    Template.sqlFrom dialect index ((sign :: signs).map (piece dialect)) ≠ "" := by
  intro hempty
  obtain ⟨c, cs, hcs, -⟩ := @exists_chars dialect sign hsign index
  have hchars := congrArg String.toList hempty
  rw [toList_sqlFrom_cons, hcs] at hchars
  cases hchars

/-- One list of signs is written as a text with these parameters, whatever index the first of
them has. -/
theorem eq_of_sqlFrom_eq {first second : List Sign} (hfirst : ∀ sign ∈ first, sign.IsAllowed)
    (hsecond : ∀ sign ∈ second, sign.IsAllowed) {index : Nat}
    (hsql : Template.sqlFrom dialect index (first.map (piece dialect)) =
      Template.sqlFrom dialect index (second.map (piece dialect)))
    (hparams : Template.params (first.map (piece dialect)) =
      Template.params (second.map (piece dialect))) : first = second := by
  induction first generalizing second index with
  | nil =>
      cases second with
      | nil => rfl
      | cons other others =>
          exact absurd hsql.symm (sqlFrom_cons_ne_empty (hsecond other List.mem_cons_self) _ _)
  | cons sign signs ih =>
      cases second with
      | nil =>
          exact absurd hsql (sqlFrom_cons_ne_empty (hfirst sign List.mem_cons_self) _ _)
      | cons other others =>
          have hchars := congrArg String.toList hsql
          rw [toList_sqlFrom_cons, toList_sqlFrom_cons] at hchars
          obtain ⟨hsame, hlength, hrests⟩ := chars_append_inj (hfirst sign List.mem_cons_self)
            (hsecond other List.mem_cons_self) hchars
          rw [params_cons, params_cons] at hparams
          obtain ⟨hvalues, hparams⟩ := List.append_inj hparams hlength
          rw [hlength] at hrests
          rw [hsame hvalues, ih (fun sign hsign => hfirst sign (List.mem_cons_of_mem _ hsign))
            (fun other hother => hsecond other (List.mem_cons_of_mem _ hother))
            (String.toList_injective hrests) hparams]

end Sign

end FilterSql

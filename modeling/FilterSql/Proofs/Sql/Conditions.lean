/-
Conditions and the signs that they are written with.

A comparison of something a column holds with a value, and two conditions under an operator,
stand in parentheses.  A test of a column for a list, a range or being absent stands without
them, and a range has an AND of its own.  Still no condition begins another one: a test opens
with its column, and the word after a column tells what is asked of it.
-/
import FilterSql.Proofs.Sql.Signs

namespace FilterSql

/-- What a comparison takes of its column. -/
inductive Aspect
  | itself
  | lowered
  | text
  | part (part : DatePart)
deriving DecidableEq

/-- What a column is tested for. -/
inductive ColumnTest
  | list (values : List Value) (negated : Bool)
  | range (low high : Value) (negated : Bool)
  | isNull (negated : Bool)

/-- A condition on columns. -/
inductive Condition
  | comparison (op : BinaryOp) (aspect : Aspect) (column : ColumnName) (value : Value)
  | test (column : ColumnName) (asked : ColumnTest)
  | combined (op : BinaryOp) (left right : Condition)

namespace Sign

/-- Words as signs. -/
def ofWords (words : List String) : List Sign :=
  words.map word

/-- The values of a list with the signs between them and after them. -/
def ofList : List Value → List Sign
  | [] => [word ")"]
  | [first] => [value first, word ")"]
  | first :: second :: values => value first :: word ", " :: ofList (second :: values)

/-- A column, and the word after it. -/
def ofColumn (column : ColumnName) (after : String) : List Sign :=
  column.table.toList.map (name · ".") ++ [name column.column after]

/-- The signs do not open with a word. -/
def OpensNoWord (signs : List Sign) : Prop :=
  ∀ text rest, signs ≠ word text :: rest

theorem opensNoWord_ofColumn (column : ColumnName) (after : String) (rest : List Sign) :
    OpensNoWord (ofColumn column after ++ rest) := by
  rcases column with ⟨_ | table, column⟩ <;> simp [OpensNoWord, ofColumn]

/-- As many words as there are before something else are the same. -/
theorem ofWords_append_inj {first second : List String} {rest others : List Sign}
    (hrest : OpensNoWord rest) (hothers : OpensNoWord others)
    (hsame : ofWords first ++ rest = ofWords second ++ others) :
    first = second ∧ rest = others := by
  induction first generalizing second with
  | nil =>
      cases second with
      | nil => exact ⟨rfl, hsame⟩
      | cons other second => exact absurd hsame (hrest _ _)
  | cons text first ih =>
      cases second with
      | nil => exact absurd hsame.symm (hothers _ _)
      | cons other second =>
          simp only [ofWords, List.map_cons, List.cons_append, List.cons.injEq, word.injEq] at hsame
          obtain ⟨rfl, hsame⟩ := hsame
          obtain ⟨rfl, hrests⟩ := ih hsame
          exact ⟨rfl, hrests⟩

/-- The word after a column ends it, unless it is the dot after its table. -/
theorem ofColumn_append_inj {first second : ColumnName} {after other : String}
    {rest others : List Sign} (hafter : after ≠ ".") (hother : other ≠ ".")
    (hsame : ofColumn first after ++ rest = ofColumn second other ++ others) :
    first = second ∧ after = other ∧ rest = others := by
  rcases first with ⟨_ | table, column⟩ <;> rcases second with ⟨_ | another, name⟩ <;>
    simp_all [ofColumn]

theorem ofList_append_inj {first second : List Value} {rest others : List Sign}
    (hsame : ofList first ++ rest = ofList second ++ others) : first = second ∧ rest = others := by
  fun_induction ofList first generalizing second with
  | case1 =>
      match second with
      | [] => simpa [ofList] using hsame
      | [_] | _ :: _ :: _ => simp [ofList] at hsame
  | case2 first =>
      match second with
      | [] => simp [ofList] at hsame
      | [_] => simpa [ofList] using hsame
      | _ :: _ :: _ => simp [ofList] at hsame
  | case3 first next values ih =>
      match second with
      | [] | [_] => simp [ofList] at hsame
      | other :: another :: others =>
          simp only [ofList, List.cons_append, List.cons.injEq, value.injEq, true_and] at hsame
          obtain ⟨rfl, hsame⟩ := hsame
          obtain ⟨hvalues, hrests⟩ := ih hsame
          exact ⟨by rw [hvalues], hrests⟩

section Allowed

theorem isAllowed_ofWords {words : List String} (hwords : ∀ text ∈ words, text ∈ Sign.words) :
    ∀ sign ∈ ofWords words, sign.IsAllowed := by
  intro sign hsign
  obtain ⟨text, htext, rfl⟩ := List.mem_map.mp hsign
  exact hwords text htext

theorem isAllowed_ofColumn {column : ColumnName} {after : String} (hafter : after ∈ words) :
    ∀ sign ∈ ofColumn column after, sign.IsAllowed := by
  have hdot : "." ∈ words := by decide
  rcases column with ⟨_ | table, column⟩ <;> simp [ofColumn, IsAllowed, hafter, hdot]

theorem isAllowed_ofList (values : List Value) : ∀ sign ∈ ofList values, sign.IsAllowed := by
  have hcomma : ", " ∈ words := by decide
  have hparen : ")" ∈ words := by decide
  fun_induction ofList values with
  | case1 | case2 => simp [IsAllowed, hparen]
  | case3 first second values ih => simpa [IsAllowed, hcomma] using ih

end Allowed

end Sign

theorem BinaryOp.text_mem_words (op : BinaryOp) : op.text ∈ Sign.words := by
  cases op <;> decide

theorem BinaryOp.text_inj {first second : BinaryOp} (hsame : first.text = second.text) :
    first = second := by
  cases first <;> cases second <;> first | rfl | (revert hsame; decide)

namespace Aspect

variable (dialect : Dialect)

/-- The aspect of a column as an expression. -/
def expr (column : ColumnName) : Aspect → Expr
  | itself => .column column
  | lowered => .call "LOWER" [.column column]
  | text => .castText (.column column)
  | part name => .datePart name (.column column)

/-- The words before the column. -/
def before : Aspect → List String
  | itself => []
  | lowered => ["LOWER("]
  | text => ["CAST("]
  | part name =>
      match dialect with
      | .postgres => ["CAST(", "EXTRACT(" ++ Dialect.partName name ++ " FROM "]
      | .mySql => [Dialect.partName name ++ "("]

/-- The word after the column, where the aspect is followed by an operator. -/
def after (op : BinaryOp) : Aspect → String
  | itself => op.text
  | text => " AS " ++ dialect.textType ++ ")"
  | lowered => ")"
  | part _ => ")"

/-- The words between the column's own and the value. -/
def between (op : BinaryOp) : Aspect → List String
  | itself => []
  | lowered | text => [op.text]
  | part _ =>
      match dialect with
      | .postgres => [" AS INTEGER)", op.text]
      | .mySql => [op.text]

variable {dialect}

theorem before_inj {first second : Aspect} (hsame : first.before dialect = second.before dialect) :
    first = second := by
  cases dialect <;> rcases first with _ | _ | _ | _ | _ | _ <;>
    rcases second with _ | _ | _ | _ | _ | _ <;> first | rfl | (revert hsame; decide)

theorem paren_notMem_before (aspect : Aspect) : "(" ∉ aspect.before dialect := by
  cases dialect <;> rcases aspect with _ | _ | _ | _ | _ | _ <;> decide

theorem before_subset_words (aspect : Aspect) :
    ∀ text ∈ aspect.before dialect, text ∈ Sign.words := by
  cases dialect <;> rcases aspect with _ | _ | _ | _ | _ | _ <;> decide

theorem after_mem_words (op : BinaryOp) (aspect : Aspect) :
    aspect.after dialect op ∈ Sign.words := by
  cases aspect with
  | itself => exact op.text_mem_words
  | lowered | part => simp [after, Sign.words]
  | text => cases dialect <;> simp [after, Sign.words, Dialect.textType]

theorem between_subset_words (op : BinaryOp) (aspect : Aspect) :
    ∀ text ∈ aspect.between dialect op, text ∈ Sign.words := by
  have hinteger : " AS INTEGER)" ∈ Sign.words := by decide
  cases dialect <;> cases aspect <;> simp [between, op.text_mem_words, hinteger]

theorem after_ne_dot (op : BinaryOp) (aspect : Aspect) : aspect.after dialect op ≠ "." := by
  cases dialect <;> cases aspect <;> cases op <;> simp [after, BinaryOp.text, Dialect.textType]

theorem op_inj {aspect : Aspect} {first second : BinaryOp}
    (hafter : aspect.after dialect first = aspect.after dialect second)
    (hbetween : aspect.between dialect first = aspect.between dialect second) : first = second := by
  apply BinaryOp.text_inj
  cases aspect with
  | itself => exact hafter
  | lowered | text => exact List.head_eq_of_cons_eq hbetween
  | part part =>
      cases dialect with
      | postgres => exact List.head_eq_of_cons_eq (List.tail_eq_of_cons_eq hbetween)
      | mySql => exact List.head_eq_of_cons_eq hbetween

end Aspect

namespace ColumnTest

/-- The test of a column as an expression. -/
def expr (column : ColumnName) : ColumnTest → Expr
  | list values negated => .inList (.column column) (values.map .value) negated
  | range low high negated => .between (.column column) (.value low) (.value high) negated
  | isNull negated => .isNull (.column column) negated

/-- The word after the column. -/
def after : ColumnTest → String
  | list _ negated => if negated then " NOT IN (" else " IN ("
  | range _ _ negated => if negated then " NOT BETWEEN " else " BETWEEN "
  | isNull negated => if negated then " IS NOT NULL" else " IS NULL"

/-- The signs after that word. -/
def signs : ColumnTest → List Sign
  | list values _ => Sign.ofList values
  | range low high _ => [.value low, .word " AND ", .value high]
  | isNull _ => []

theorem after_mem_words (test : ColumnTest) : test.after ∈ Sign.words := by
  rcases test with ⟨_, _ | _⟩ | ⟨_, _, _ | _⟩ | _ | _ <;> simp [after, Sign.words]

theorem isAllowed_signs (test : ColumnTest) : ∀ sign ∈ test.signs, sign.IsAllowed := by
  have hand : " AND " ∈ Sign.words := by decide
  cases test with
  | list values negated => exact Sign.isAllowed_ofList values
  | range low high negated => simp [signs, Sign.IsAllowed, hand]
  | isNull negated => simp [signs]

theorem after_ne_dot (test : ColumnTest) : test.after ≠ "." := by
  rcases test with ⟨_, _ | _⟩ | ⟨_, _, _ | _⟩ | _ | _ <;> simp [after]

theorem after_ne_text (test : ColumnTest) (op : BinaryOp) : test.after ≠ op.text := by
  rcases test with ⟨_, _ | _⟩ | ⟨_, _, _ | _⟩ | _ | _ <;> cases op <;> simp [after, BinaryOp.text]

theorem signs_append_inj {first second : ColumnTest} {rest others : List Sign}
    (hafter : first.after = second.after)
    (hsame : first.signs ++ rest = second.signs ++ others) : first = second ∧ rest = others := by
  rcases first with ⟨values, _ | _⟩ | ⟨low, high, _ | _⟩ | _ | _ <;>
    rcases second with ⟨others, _ | _⟩ | ⟨least, most, _ | _⟩ | _ | _ <;>
    simp [after] at hafter
  case list.false.list.false | list.true.list.true =>
    obtain ⟨rfl, hrests⟩ := Sign.ofList_append_inj hsame
    exact ⟨rfl, hrests⟩
  all_goals simpa [signs, and_assoc] using hsame

end ColumnTest

namespace Condition

variable (dialect : Dialect)

/-- The condition as an expression. -/
def expr : Condition → Expr
  | comparison op aspect column value => .binary op (aspect.expr column) (.value value)
  | test column asked => asked.expr column
  | combined op left right => .binary op left.expr right.expr

/-- The signs that the condition is written with. -/
def signs : Condition → List Sign
  | comparison op aspect column value =>
      .word "(" :: Sign.ofWords (aspect.before dialect) ++
        Sign.ofColumn column (aspect.after dialect op) ++
        Sign.ofWords (aspect.between dialect op) ++ [.value value, .word ")"]
  | test column asked => Sign.ofColumn column asked.after ++ asked.signs
  | combined op left right =>
      .word "(" :: left.signs ++ .word op.text :: right.signs ++ [.word ")"]

variable {dialect}

theorem isAllowed_signs (condition : Condition) :
    ∀ sign ∈ condition.signs dialect, sign.IsAllowed := by
  have hopen : (Sign.word "(").IsAllowed := by simp [Sign.IsAllowed, Sign.words]
  have hclose : (Sign.word ")").IsAllowed := by simp [Sign.IsAllowed, Sign.words]
  induction condition with
  | comparison op aspect column value =>
      have hbefore := Sign.isAllowed_ofWords (@Aspect.before_subset_words dialect aspect)
      have hcolumn := @Sign.isAllowed_ofColumn column _ (@Aspect.after_mem_words dialect op aspect)
      have hbetween := Sign.isAllowed_ofWords (@Aspect.between_subset_words dialect op aspect)
      simp only [signs, List.forall_mem_append, List.forall_mem_cons]
      exact ⟨⟨⟨⟨hopen, hbefore⟩, hcolumn⟩, hbetween⟩, trivial, hclose, by simp⟩
  | test column asked =>
      rw [signs, List.forall_mem_append]
      exact ⟨Sign.isAllowed_ofColumn asked.after_mem_words, asked.isAllowed_signs⟩
  | combined op left right ihleft ihright =>
      simp only [signs, List.forall_mem_append, List.forall_mem_cons]
      exact ⟨⟨⟨hopen, ihleft⟩, op.text_mem_words, ihright⟩, hclose, by simp⟩

/-- A condition opens with a parenthesis, unless it is a test. -/
theorem signs_cases (condition : Condition) :
    (∃ column asked, condition = .test column asked) ∨
      ∃ rest, condition.signs dialect = .word "(" :: rest := by
  cases condition with
  | comparison op aspect column value => exact Or.inr ⟨_, rfl⟩
  | test column asked => exact Or.inl ⟨column, asked, rfl⟩
  | combined op left right => exact Or.inr ⟨_, rfl⟩

/-- What a comparison has in its parentheses is no condition before an operator. -/
theorem comparison_ne_combined {op other : BinaryOp} {aspect : Aspect} {column : ColumnName}
    {condition : Condition} {rest others : List Sign} :
    Sign.ofWords (aspect.before dialect) ++
        (Sign.ofColumn column (aspect.after dialect op) ++ rest) ≠
      condition.signs dialect ++ .word other.text :: others := by
  intro hsame
  rcases @signs_cases dialect condition with ⟨name, asked, rfl⟩ | ⟨inner, hinner⟩
  · -- A test opens with its column, and an operator is not what it asks.
    have hwords : Sign.ofWords (aspect.before dialect) ++
        (Sign.ofColumn column (aspect.after dialect op) ++ rest) =
          Sign.ofWords (Aspect.itself.before dialect) ++
            (Sign.ofColumn name asked.after ++ (asked.signs ++ .word other.text :: others)) := by
      rw [hsame, signs, List.append_assoc]
      rfl
    obtain ⟨hbefore, hcolumns⟩ := Sign.ofWords_append_inj
      (Sign.opensNoWord_ofColumn _ _ _) (Sign.opensNoWord_ofColumn _ _ _) hwords
    obtain rfl := Aspect.before_inj hbefore
    obtain ⟨-, hafter, -⟩ := Sign.ofColumn_append_inj (Aspect.after_ne_dot op _)
      asked.after_ne_dot hcolumns
    exact asked.after_ne_text op hafter.symm
  · rw [hinner] at hsame
    cases hbefore : aspect.before dialect with
    | nil =>
        rw [hbefore] at hsame
        exact Sign.opensNoWord_ofColumn _ _ _ _ _ hsame
    | cons text words =>
        rw [hbefore] at hsame
        have hparen : text = "(" := Sign.word.inj (List.head_eq_of_cons_eq hsame)
        apply @Aspect.paren_notMem_before dialect aspect
        rw [hbefore, hparen]
        exact List.mem_cons_self

/-- A comparison is read back from the signs in its parentheses. -/
theorem comparison_append_inj {op other : BinaryOp} {aspect another : Aspect}
    {column name : ColumnName} {value bound : Value} {rest others : List Sign}
    (hsame : (comparison op aspect column value).signs dialect ++ rest =
      (comparison other another name bound).signs dialect ++ others) :
    comparison op aspect column value = comparison other another name bound ∧ rest = others := by
  simp only [signs, List.cons_append, List.append_assoc, List.cons.injEq, true_and] at hsame
  obtain ⟨hbefore, hcolumns⟩ := Sign.ofWords_append_inj
    (Sign.opensNoWord_ofColumn _ _ _) (Sign.opensNoWord_ofColumn _ _ _) hsame
  obtain rfl := Aspect.before_inj hbefore
  obtain ⟨rfl, hafter, hwords⟩ := Sign.ofColumn_append_inj (Aspect.after_ne_dot op _)
    (Aspect.after_ne_dot other _) hcolumns
  obtain ⟨hbetween, hvalues⟩ := Sign.ofWords_append_inj (by simp [Sign.OpensNoWord])
    (by simp [Sign.OpensNoWord]) hwords
  obtain rfl := Aspect.op_inj hafter hbetween
  simp only [List.nil_append, List.cons.injEq, Sign.value.injEq, true_and] at hvalues
  exact ⟨by rw [hvalues.1], hvalues.2⟩

/-- No condition begins another one. -/
theorem signs_append_inj {first second : Condition} {rest others : List Sign}
    (hsame : first.signs dialect ++ rest = second.signs dialect ++ others) :
    first = second ∧ rest = others := by
  induction first generalizing second rest others with
  | comparison op aspect column value =>
      cases second with
      | comparison other another name bound => exact comparison_append_inj hsame
      | test name asked =>
          simp only [signs, List.cons_append, List.append_assoc] at hsame
          exact absurd hsame.symm (Sign.opensNoWord_ofColumn _ _ _ _ _)
      | combined other left right =>
          simp only [signs, List.cons_append, List.append_assoc, List.cons.injEq, true_and] at hsame
          exact absurd hsame comparison_ne_combined
  | test column asked =>
      cases second with
      | test name another =>
          simp only [signs, List.append_assoc] at hsame
          obtain ⟨rfl, hafter, hsigns⟩ := Sign.ofColumn_append_inj asked.after_ne_dot
            another.after_ne_dot hsame
          obtain ⟨rfl, hrests⟩ := ColumnTest.signs_append_inj hafter hsigns
          exact ⟨rfl, hrests⟩
      | comparison | combined =>
          simp only [signs, List.cons_append, List.append_assoc] at hsame
          exact absurd hsame (Sign.opensNoWord_ofColumn _ _ _ _ _)
  | combined op left right ihleft ihright =>
      cases second with
      | comparison other aspect name bound =>
          simp only [signs, List.cons_append, List.append_assoc, List.cons.injEq, true_and] at hsame
          exact absurd hsame.symm comparison_ne_combined
      | test name asked =>
          simp only [signs, List.cons_append, List.append_assoc] at hsame
          exact absurd hsame.symm (Sign.opensNoWord_ofColumn _ _ _ _ _)
      | combined other first second =>
          simp only [signs, List.cons_append, List.append_assoc, List.cons.injEq, true_and] at hsame
          obtain ⟨rfl, hop⟩ := ihleft hsame
          simp only [List.cons.injEq, Sign.word.injEq] at hop
          obtain ⟨rfl, hparens⟩ := ihright hop.2
          obtain rfl := BinaryOp.text_inj hop.1
          exact ⟨rfl, List.tail_eq_of_cons_eq hparens⟩

end Condition

end FilterSql

/-
Operators that deny what others ask.

`=` has the negation `!=`, `in:` has `notin:`, and `between:` has `notbetween:`.  With one operand
both make a condition on a column or neither does, and one condition is the Kleene negation of
the other.  So where the column has a value, just one of the two holds.  It is the same where the
operand is the word `null`, which asks for absent values or for present ones.
-/
import FilterSql.Proofs.Filter.OperatorText
import FilterSql.Proofs.Filter.WellTyped
import FilterSql.Proofs.Sql.Truth

namespace FilterSql

namespace Truth

theorem not_ofBool (b : Bool) : (ofBool b).not = ofBool !b := by
  cases b <;> rfl

theorem any_ofBool (bs : List Bool) : any (bs.map ofBool) = ofBool (bs.any id) := by
  induction bs with
  | nil => rfl
  | cons b bs ih =>
      have hrest : any ((b :: bs).map ofBool) = (ofBool b).or (any (bs.map ofBool)) := rfl
      rw [hrest, ih, List.any_cons]
      cases b <;> cases bs.any id <;> rfl

end Truth

namespace Engine

variable (engine : Engine)

theorem compare_of_present (op : BinaryOp) {left right : Value} (hleft : left.isNull = false)
    (hright : right.isNull = false) :
    engine.compare op left right = .ofBool (engine.holds op left right) := by
  rw [compare, hleft, hright]
  rfl

theorem compare_notEq (left right : Value) :
    engine.compare .notEq left right = (engine.compare .eq left right).not := by
  rw [compare, compare]
  split
  · rfl
  · rw [Truth.not_ofBool]
    rfl

end Engine

theorem Value.isNull_of_ne {value : Value} (hvalue : value ≠ .null) : value.isNull = false := by
  cases value with
  | null => exact absurd rfl hvalue
  | _ => rfl

/-- A condition on a column and its negation.  In every database and of every reading one is the
Kleene negation of the other, and where the column has a value just one of them holds. -/
structure Expr.Complementary (column : ColumnName) (asked denied : Expr) : Prop where
  negates : ∀ engine read, denied.truth engine read = (asked.truth engine read).not
  decides : ∀ engine read, (read column).isNull = false →
    (denied.truth engine read = .yes ↔ asked.truth engine read ≠ .yes)

namespace Expr.Complementary

variable {column : ColumnName} {asked denied : Expr}

/-- What is decided where the column has a value is not unknown there. -/
theorem of_decided
    (hnegates : ∀ engine read, denied.truth engine read = (asked.truth engine read).not)
    (hdecided : ∀ engine read, (read column).isNull = false →
      ∃ b, asked.truth engine read = .ofBool b) : Complementary column asked denied where
  negates := hnegates
  decides := by
    intro engine read hpresent
    obtain ⟨b, hb⟩ := hdecided engine read hpresent
    rw [hnegates, hb]
    cases b <;> decide

theorem isNull (column : ColumnName) :
    Complementary column (.isNull (.column column) false) (.isNull (.column column) true) := by
  apply of_decided
  · intro engine read
    rw [truth, truth, Truth.not_ofBool, Bool.bne_false, Bool.bne_true]
  · exact fun _ _ _ => ⟨_, rfl⟩

theorem equality {value : Value} (hvalue : value.isNull = false) :
    Complementary column (.binary .eq (.column column) (.value value))
      (.binary .notEq (.column column) (.value value)) := by
  apply of_decided
  · exact fun engine read => engine.compare_notEq (read column) value
  · exact fun engine _ hpresent => ⟨_, engine.compare_of_present .eq hpresent hvalue⟩

theorem list {values : List Value} (hvalues : ∀ value ∈ values, value.isNull = false) :
    Complementary column (.inList (.column column) (values.map .value) false)
      (.inList (.column column) (values.map .value) true) := by
  apply of_decided
  · exact fun _ _ => rfl
  · intro engine read hpresent
    have hitems : (values.map Expr.value).map (fun item =>
        engine.compare .eq (scalar engine read (.column column)) (scalar engine read item)) =
        (values.map fun value => engine.holds .eq (read column) value).map Truth.ofBool := by
      rw [List.map_map, List.map_map]
      apply List.map_congr_left
      exact fun value hvalue => engine.compare_of_present .eq hpresent (hvalues value hvalue)
    exact ⟨_, (congrArg Truth.any hitems).trans (Truth.any_ofBool _)⟩

theorem range {low high : Value} (hlow : low.isNull = false) (hhigh : high.isNull = false) :
    Complementary column (.between (.column column) (.value low) (.value high) false)
      (.between (.column column) (.value low) (.value high) true) := by
  apply of_decided
  · exact fun _ _ => rfl
  · intro engine read hpresent
    have hends := congrArg₂ Truth.and (engine.compare_of_present .gtEq hpresent hlow)
      (engine.compare_of_present .ltEq hpresent hhigh)
    exact ⟨_, hends.trans (Truth.and_ofBool _ _)⟩

end Expr.Complementary

/-- The operator that denies what an operator asks. -/
def Operator.negation? : Operator → Option Operator
  | eq => some notEq
  | inList => some notInList
  | between => some notBetween
  | _ => none

namespace Target

variable (target : Target) (operand : String)

theorem complementary_comparison? :
    Option.Rel (Expr.Complementary target.column) (target.comparison? .eq operand)
      (target.comparison? .notEq operand) := by
  cases hvalue : Operand.scalar? target.type operand with
  | none =>
      simp only [comparison?, hvalue]
      exact .none
  | some value =>
      simp only [comparison?, hvalue]
      exact .some (.equality (Value.isNull_of_ne (Operand.takes_of_scalar? hvalue).isPresent.1))

theorem complementary_list? :
    Option.Rel (Expr.Complementary target.column) (target.list? .inList operand)
      (target.list? .notInList operand) := by
  simp only [list?, listNegation?, Option.bind_eq_bind, Option.bind_some]
  split
  · exact .none
  · refine .some (.list ?_)
    intro value hvalue
    obtain ⟨entry, -, hvalue⟩ := List.mem_filterMap.mp hvalue
    exact Value.isNull_of_ne (Operand.takes_of_scalar? hvalue).isPresent.1

theorem complementary_range? :
    Option.Rel (Expr.Complementary target.column) (target.range? .between operand)
      (target.range? .notBetween operand) := by
  simp only [range?, rangeNegation?, Option.bind_eq_bind, Option.bind_some]
  split
  next low high _ _ =>
    cases hends : bounds? target.type low high with
    | none => exact .none
    | some ends =>
        obtain ⟨hlow, hhigh⟩ := takes_of_bounds? hends
        exact .some (.range (Value.isNull_of_ne hlow.isPresent.1)
          (Value.isNull_of_ne hhigh.isPresent.1))
  · exact .none

variable {target operand}

theorem complementary_operation? {operator negation : Operator}
    (hnegation : operator.negation? = some negation) :
    Option.Rel (Expr.Complementary target.column) (target.operation? operator operand)
      (target.operation? negation operand) := by
  cases operator <;> cases hnegation
  case eq => exact target.complementary_comparison? operand
  case inList => exact target.complementary_list? operand
  case between => exact target.complementary_range? operand

end Target

section Negation

variable {operator negation : Operator} {operand : String}

theorem Operator.takesEquals_of_negation? (hnegation : operator.negation? = some negation) :
    operator.takesEquals = false ∧ negation.takesEquals = false := by
  cases operator <;> cases hnegation <;> exact ⟨rfl, rfl⟩

theorem ColumnName.complementary_condition? (column : ColumnName) (cast : String)
    (hnegation : operator.negation? = some negation)
    (hblank : Text.isBlankText operand = false) (mode : DefaultMatch) :
    Option.Rel (Expr.Complementary column)
      (column.condition? cast (operator.symbol ++ operand) mode)
      (column.condition? cast (negation.symbol ++ operand) mode) := by
  cases htarget : Target.ofCast? column cast with
  | none =>
      rw [condition?, condition?, htarget]
      exact .none
  | some target =>
      obtain ⟨hoperator, hdenial⟩ := Operator.takesEquals_of_negation? hnegation
      rw [condition?_symbol_append htarget operator hblank (by simp [hoperator]),
        condition?_symbol_append htarget negation hblank (by simp [hdenial]),
        ← Target.column_of_ofCast? htarget]
      exact Target.complementary_operation? hnegation

/-- A symbol before an operand stays as it is when the text is looked up among the words that ask
for absent values. -/
theorem NullCheck.ofText?_symbol_append (operator : Operator)
    (hblank : Text.isBlankText operand = false) :
    ofText? (operator.symbol ++ operand) =
      words.lookup (operator.symbol ++
        String.ofList (Text.asciiLower (operand.toList.rdropWhile Text.isBlank))) := by
  obtain ⟨first, symbol, hsymbol, hfirst⟩ := operator.symbol_eq_cons
  have htrim : Text.trim (operator.symbol ++ operand).toList =
      operator.symbol.toList ++ operand.toList.rdropWhile Text.isBlank := by
    rw [String.toList_append, hsymbol]
    exact Text.strip_cons_append hfirst (Text.exists_isBlank_eq_false hblank)
  have hlower : Text.asciiLower operator.symbol.toList = operator.symbol.toList := by
    cases operator <;> decide
  rw [ofText?, htrim, Text.asciiLower, List.map_append, ← Text.asciiLower, hlower,
    String.ofList_append, String.ofList_toList]
  rfl

theorem NullCheck.lookup_words_eq_none {text : String}
    (htext : ∀ word ∈ words, text.toList ≠ word.1.toList) : words.lookup text = none := by
  rw [List.lookup_eq_none_iff]
  intro word hword
  rw [bne_iff_ne, ne_eq, ← String.toList_inj]
  exact htext word hword

/-- The question for absent values is asked and denied with the same operands. -/
theorem NullCheck.ofText?_negation (hnegation : operator.negation? = some negation)
    (hblank : Text.isBlankText operand = false) :
    (ofText? (operator.symbol ++ operand) = none ∧ ofText? (negation.symbol ++ operand) = none) ∨
      (ofText? (operator.symbol ++ operand) = some .isNull ∧
        ofText? (negation.symbol ++ operand) = some .isNotNull) := by
  rw [ofText?_symbol_append operator hblank, ofText?_symbol_append negation hblank]
  generalize String.ofList (Text.asciiLower (operand.toList.rdropWhile Text.isBlank)) = word
  cases operator <;> cases hnegation
  case eq =>
    by_cases hnull : word = "null"
    · subst hnull
      exact Or.inr ⟨rfl, rfl⟩
    · rw [← String.toList_inj] at hnull
      have hother : word.toList ≠ ['n', 'u', 'l', 'l'] := hnull
      left
      constructor <;> (apply lookup_words_eq_none; simp [words, Operator.symbol, hother])
  case inList | between =>
    left
    constructor <;> (apply lookup_words_eq_none; simp [words, Operator.symbol])

end Negation

namespace Field

variable {scope : Scope} {field : Field} {column : ColumnName}

theorem valuePredicate_of_ofText?_eq_some (hcolumn : field.column? scope = some column)
    {raw : String} {check : NullCheck} (hcheck : NullCheck.ofText? raw = some check) :
    field.valuePredicate scope raw =
      .ofExpr (.isNull (.column column) (check == .isNotNull)) := by
  rw [valuePredicate, hcolumn]
  dsimp only
  rw [hcheck]

theorem valuePredicate_of_ofText?_eq_none (hrelation : field.relation = none)
    (hcolumn : field.column? scope = some column) {raw : String}
    (hcheck : NullCheck.ofText? raw = none) :
    field.valuePredicate scope raw = .ofOption (column.condition? field.cast raw .byType) := by
  rw [valuePredicate, hcolumn]
  dsimp only
  rw [hcheck, hrelation]

/-- With one operand, an operator and its negation both make a condition or neither does, without
a join, and the conditions deny each other. -/
theorem valuePredicate_negation (hrelation : field.relation = none)
    (hcolumn : field.column? scope = some column) {operator negation : Operator}
    (hnegation : operator.negation? = some negation) {operand : String}
    (hblank : Text.isBlankText operand = false) :
    Option.Rel (Expr.Complementary column)
        (field.valuePredicate scope (operator.symbol ++ operand)).condition
        (field.valuePredicate scope (negation.symbol ++ operand)).condition ∧
      (field.valuePredicate scope (operator.symbol ++ operand)).joins = [] ∧
      (field.valuePredicate scope (negation.symbol ++ operand)).joins = [] := by
  rcases NullCheck.ofText?_negation hnegation hblank with ⟨hasks, hdenies⟩ | ⟨hasks, hdenies⟩
  · rw [valuePredicate_of_ofText?_eq_none hrelation hcolumn hasks,
      valuePredicate_of_ofText?_eq_none hrelation hcolumn hdenies]
    exact ⟨column.complementary_condition? field.cast hnegation hblank .byType, rfl, rfl⟩
  · rw [valuePredicate_of_ofText?_eq_some hcolumn hasks,
      valuePredicate_of_ofText?_eq_some hcolumn hdenies]
    exact ⟨.some (.isNull column), rfl, rfl⟩

end Field

namespace NegatedOperators

/-- The age of a user. -/
def ageField : Field := Field.ofColumn "age" "int"

/-- An entry that is no number is left out of a list and of its negation. -/
theorem complementary_ages :
    (ageField.relation = none ∧
      ageField.column? ⟨"users", .inner⟩ = some ⟨some "users", "age"⟩ ∧
      Operator.inList.negation? = some .notInList ∧ Text.isBlankText "18, x, 21" = false) ∧
    ∃ asked denied,
      (ageField.valuePredicate ⟨"users", .inner⟩ "in:18, x, 21").condition = some asked ∧
      (ageField.valuePredicate ⟨"users", .inner⟩ "notin:18, x, 21").condition = some denied ∧
      Expr.Complementary ⟨some "users", "age"⟩ asked denied := by
  have hcolumn : ageField.column? ⟨"users", .inner⟩ = some ⟨some "users", "age"⟩ := by decide
  have hblank : Text.isBlankText "18, x, 21" = false := by decide
  have hasks : (ageField.valuePredicate ⟨"users", .inner⟩ "in:18, x, 21").condition.isSome := by
    decide +kernel
  refine ⟨⟨rfl, hcolumn, rfl, hblank⟩, ?_⟩
  obtain ⟨asked, hasked⟩ := Option.isSome_iff_exists.mp hasks
  have hcomplementary := (Field.valuePredicate_negation rfl hcolumn
    (rfl : Operator.inList.negation? = some .notInList) hblank).1
  change Option.Rel _ (ageField.valuePredicate ⟨"users", .inner⟩ "in:18, x, 21").condition
    (ageField.valuePredicate ⟨"users", .inner⟩ "notin:18, x, 21").condition at hcomplementary
  rw [hasked] at hcomplementary
  generalize (ageField.valuePredicate ⟨"users", .inner⟩ "notin:18, x, 21").condition = condition
    at hcomplementary ⊢
  cases hcomplementary with
  | some hcomplementary => exact ⟨asked, _, hasked, rfl, hcomplementary⟩

end NegatedOperators

end FilterSql

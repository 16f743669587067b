/-
Conditions that no other condition is written like.

Whatever filters and searches ask for, their conditions compare columns, test them, and
combine such conditions by AND and OR.  The text of one, with its parameters, is the text of
no other.
-/
import FilterSql.Proofs.Filter.NamedColumns
import FilterSql.Proofs.Sql.ConditionText

namespace FilterSql

theorem Expr.IsCondition.binary {left right : Expr} (hleft : left.IsCondition)
    (hright : right.IsCondition) (op : BinaryOp) : (Expr.binary op left right).IsCondition := by
  obtain ⟨first, rfl⟩ := hleft
  obtain ⟨second, rfl⟩ := hright
  exact ⟨.combined op first second, rfl⟩

theorem ColumnName.Form.isCondition {column : ColumnName} {expr : Expr}
    (hexpr : column.Form expr) : expr.IsCondition := by
  induction hexpr with
  | @comparison op _ value _ => exact ⟨.comparison op .itself column value, rfl⟩
  | lowered pattern => exact ⟨.comparison .like .lowered column pattern, rfl⟩
  | text pattern => exact ⟨.comparison .like .text column pattern, rfl⟩
  | @list values negated _ => exact ⟨.test column (.list values negated), rfl⟩
  | range low high negated => exact ⟨.test column (.range low high negated), rfl⟩
  | datePart part value => exact ⟨.comparison .eq (.part part) column value, rfl⟩
  | and _ _ ihleft ihright => exact ihleft.binary ihright .and

theorem ColumnName.isCondition_of_condition? {column : ColumnName} {cast raw : String}
    {mode : DefaultMatch} : ∀ expr ∈ column.condition? cast raw mode, expr.IsCondition :=
  fun _ hexpr => (form_of_condition? hexpr).isCondition

theorem stable_isCondition : Predicate.Stable Expr.IsCondition fun _ => True where
  and _ _ hleft hright := hleft.binary hright .and
  or _ _ hleft hright := hleft.binary hright .or
  outer _ _ := trivial

namespace Field

variable {scope : Scope} {field : Field}

theorem meets_isCondition (scope : Scope) (field : Field) :
    field.Meets Expr.IsCondition (fun _ => True) scope := by
  apply meets_of_conditions stable_isCondition
  · exact fun name negated _ => ⟨.test name (.isNull negated), rfl⟩
  · exact fun name cast raw mode _ => ColumnName.isCondition_of_condition?
  · exact fun _ _ => trivial

theorem isCondition_of_filterPredicate {raw : String} {predicate : Predicate}
    (hpredicate : field.filterPredicate scope raw = .ok predicate) :
    ∀ condition ∈ predicate.condition, condition.IsCondition := by
  refine ((assembled_filterPredicate hpredicate).satisfies stable_isCondition ?_).condition
  intro part hpart
  exact (meets_isCondition scope field).of_brings (brings_of_mem_filterParts hpart)

end Field

theorem isCondition_of_searchPredicate {scope : Scope} {fields : List Field} {term : String} :
    ∀ condition ∈ (searchPredicate scope fields term).condition, condition.IsCondition := by
  refine ((assembled_searchPredicate fields term).satisfies stable_isCondition ?_).condition
  intro part hpart
  obtain ⟨field, -, hbrings⟩ := exists_brings_of_mem_searchParts hpart
  exact (field.meets_isCondition scope).of_brings hbrings

/-- Two conditions with the same text and the same parameters are the same condition, of all that
filters and searches may ask for, under every nesting of AND and OR. -/
theorem conditions_uniquelyReadable :
    (∀ (scope : Scope) (field : Field) (raw : String) (predicate : Predicate),
      field.filterPredicate scope raw = .ok predicate →
        ∀ condition ∈ predicate.condition, condition.IsCondition) ∧
    (∀ (scope : Scope) (fields : List Field) (term : String),
      ∀ condition ∈ (searchPredicate scope fields term).condition, condition.IsCondition) ∧
    ∀ (dialect : Dialect) (first second : Expr), first.IsCondition → second.IsCondition →
      (first.template dialect).sql dialect = (second.template dialect).sql dialect →
      (first.template dialect).params = (second.template dialect).params → first = second := by
  refine ⟨?_, ?_, ?_⟩
  · intro scope field raw predicate hpredicate
    exact Field.isCondition_of_filterPredicate hpredicate
  · intro scope fields term
    exact isCondition_of_searchPredicate
  · rintro dialect _ _ ⟨first, rfl⟩ ⟨second, rfl⟩ hsql hparams
    rw [Condition.eq_of_sql_eq hsql hparams]

namespace UniqueText

/-- The age of a user. -/
def age : Field :=
  (Field.ofColumn "age" "int").searched

/-- A range of ages. -/
def rangeTest : Expr :=
  .between (.column ⟨some "users", "age"⟩) (.value (.int 1)) (.value (.int 9)) false

/-- A test for an age that is there. -/
def presentTest : Expr :=
  .isNull (.column ⟨some "users", "age"⟩) true

/-- The first AND of the text is not the one that combines the tests, and to group three tests
another way makes another text. -/
theorem uniquelyReadable_of_age :
    ∃ predicate found,
      age.filterPredicate (Config.standard.scope "users") "between:1,9&&!=null" = .ok predicate ∧
      predicate.condition = some found ∧
      (found.template .postgres).sql .postgres =
        "(\"users\".\"age\" BETWEEN $1 AND $2 AND \"users\".\"age\" IS NOT NULL)" ∧
      found = rangeTest.and presentTest ∧
      ((found.or presentTest).template .postgres).sql .postgres ≠
        ((rangeTest.and (presentTest.or presentTest)).template .postgres).sql .postgres := by
  obtain ⟨hfilter, -, hunique⟩ := conditions_uniquelyReadable
  have htree : Tree.ofText "between:1,9&&!=null" =
      .ok (.and (.leaf "between:1,9") (.leaf "!=null")) := by decide +kernel
  have hpredicate : age.filterPredicate (Config.standard.scope "users") "between:1,9&&!=null" =
      .ok (.ofExpr (rangeTest.and presentTest)) := by
    rw [Field.filterPredicate, if_neg (by decide), htree]
    rfl
  have hfound := hfilter _ _ _ _ hpredicate (rangeTest.and presentTest) rfl
  have hrange : rangeTest.IsCondition := ⟨.test _ (.range _ _ _), rfl⟩
  have hpresent : presentTest.IsCondition := ⟨.test _ (.isNull _), rfl⟩
  refine ⟨_, _, hpredicate, rfl, by decide, ?_, fun hsql => ?_⟩
  · exact hunique .postgres _ _ hfound (hrange.binary hpresent .and) rfl rfl
  · have hsame := hunique .postgres _ _ (hfound.binary hpresent .or)
      (hrange.binary (hpresent.binary hpresent .or) .and) hsql rfl
    cases hsame

end UniqueText

end FilterSql

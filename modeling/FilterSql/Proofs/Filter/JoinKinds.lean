/-
The kind of the joins that a field is searched through.

The setting changes no more than the kind of the joins: with left joins a value makes the
predicate that it makes with inner joins, all of whose joins are then left joins.  Nor does
it change which rows are kept.  A row without a related one is dropped by an inner join;
behind a left join its related columns are absent, and every condition on them is unknown.
-/
import FilterSql.Proofs.Filter.AbsentColumns
import FilterSql.Proofs.Filter.JoinNames
import FilterSql.Proofs.Filter.Mentions
import FilterSql.Proofs.Filter.RepeatedValues
import FilterSql.Proofs.Filter.Rows

namespace FilterSql

section LeftJoins

namespace Predicate

theorem outerJoins_outerJoins (predicate : Predicate) :
    predicate.outerJoins.outerJoins = predicate.outerJoins := by
  simp [outerJoins]

theorem outerJoins_combine (op : Expr → Expr → Expr) (left right : Predicate) :
    (combine op left right).outerJoins = combine op left.outerJoins right.outerJoins := by
  have hfold : ∀ added start : List Join,
      (added.foldl (fun joins join => join.insertInto joins) start).map Join.outer =
        (added.map Join.outer).foldl (fun joins join => join.insertInto joins)
          (start.map Join.outer) := by
    intro added
    induction added with
    | nil => simp
    | cons join added ih =>
        intro start
        rw [List.foldl_cons, ih, Join.map_outer_insertInto, List.map_cons, List.foldl_cons]
  rw [outerJoins, combine, hfold]
  rfl

end Predicate

variable (table : String) (kind : JoinKind) (field : Field)

theorem Relation.join?_left (relation : Relation) (key : ColumnName) :
    relation.join? key .left = (relation.join? key kind).map Join.outer := by
  simp only [join?]
  split
  · rfl
  · rw [Option.map_map]
    rfl

namespace Field

theorem relatedPredicate_outer (columns : List RelatedColumn) (join : Join) (raw : String) :
    relatedPredicate columns join.outer raw = (relatedPredicate columns join raw).outerJoins := by
  -- The kind of a join plays no part in the conditions under its name.
  have hconditions : columns.filterMap (RelatedColumn.condition? · join.outer raw) =
      columns.filterMap (RelatedColumn.condition? · join raw) := rfl
  simp only [relatedPredicate, hconditions]
  split
  · rfl
  · rw [Predicate.outerJoins, Predicate.withJoin, Predicate.withJoin, Predicate.joins_any_ofExpr]
    rfl

/-- With left joins a value makes the same predicate, with left joins. -/
theorem valuePredicate_left (raw : String) :
    field.valuePredicate ⟨table, .left⟩ raw =
      (field.valuePredicate ⟨table, kind⟩ raw).outerJoins := by
  have hcolumn : field.column? ⟨table, .left⟩ = field.column? ⟨table, kind⟩ := rfl
  have hrelation : ∀ relation key, relationPredicate ⟨table, .left⟩ field relation key raw =
      (relationPredicate ⟨table, kind⟩ field relation key raw).outerJoins := by
    intro relation key
    rw [relationPredicate, relationPredicate]
    cases field.relatedColumns? with
    | none => rfl
    | some columns =>
        simp only [Relation.join?_left kind]
        cases relation.join? key kind with
        | none => rfl
        | some join => exact relatedPredicate_outer columns join raw
  rw [valuePredicate, valuePredicate, hcolumn]
  cases field.column? ⟨table, kind⟩ with
  | none => rfl
  | some key =>
      cases NullCheck.ofText? raw with
      | some check => rfl
      | none =>
          cases field.relation with
          | none => rfl
          | some relation => exact hrelation relation key

theorem treePredicate_left (tree : Tree) :
    field.treePredicate ⟨table, .left⟩ tree =
      (field.treePredicate ⟨table, kind⟩ tree).outerJoins := by
  induction tree with
  | leaf raw => exact valuePredicate_left table kind field raw
  | and left right ihleft ihright | or left right ihleft ihright =>
      rw [treePredicate, ihleft, ihright]
      exact (Predicate.outerJoins_combine _ _ _).symm

theorem filterPredicate_left (raw : String) :
    field.filterPredicate ⟨table, .left⟩ raw =
      (field.filterPredicate ⟨table, kind⟩ raw).map Predicate.outerJoins := by
  rw [filterPredicate, filterPredicate]
  split
  · rw [valuePredicate_left table kind]
    rfl
  · cases Tree.ofText raw with
    | error reason => rfl
    | ok tree =>
        simp only [bind, Except.bind, treePredicate_left table kind]
        split <;> rfl

end Field

end LeftJoins

namespace BaseRow

/-- A reading of the columns of a row and of the rows that joins lead to: where there is none,
all columns under the name of the join are absent. -/
def ReadsBy (row : BaseRow) (joins : List Join) (read : ColumnName → Value) : Prop :=
  ∀ join ∈ joins, row.partner? join = none →
    ∀ name : ColumnName, name.table = some join.asName → read name = .null

theorem readsBy_read (row : BaseRow) {base : String} {joins : List Join}
    (hnames : (joins.map Join.asName).Nodup) (hbase : ∀ join ∈ joins, join.asName ≠ base) :
    row.ReadsBy joins (row.read base joins) := by
  intro join hjoin hpartner name hname
  have hother : ¬ name.table = some base := by
    rw [hname, Option.some.injEq]
    exact hbase join hjoin
  rw [read, if_neg hother]
  split
  next found hfound =>
    have hsame : found = join := by
      apply List.inj_on_of_nodup_map hnames (List.mem_of_find?_eq_some hfound) hjoin
      have hfoundName : join.asName = found.asName := by simpa [hname] using List.find?_some hfound
      exact hfoundName.symm
    rw [hsame, hpartner]
  next => rfl

/-- What a row reads does not depend on the kind of the joins. -/
theorem read_map_outer (row : BaseRow) (base : String) (joins : List Join) :
    row.read base (joins.map Join.outer) = row.read base joins := by
  funext name
  have hfound : (joins.map Join.outer).find? (fun join => name.table = some join.asName) =
      (joins.find? fun join => name.table = some join.asName).map Join.outer := List.find?_map
  rw [read, read, hfound]
  split
  · rfl
  · cases joins.find? fun join => decide (name.table = some join.asName) <;> rfl

end BaseRow

namespace Predicate

/-- A row passes all joins, and the condition, if there is one, is true of a reading of it. -/
def KeepsAs (engine : Engine) (row : BaseRow) (read : ColumnName → Value) (predicate : Predicate) :
    Prop :=
  (∀ join ∈ predicate.joins, row.Passes join) ∧
    ∀ condition ∈ predicate.condition, condition.truth engine read = .yes

/-- The condition is unknown of a reading, and without a condition nothing is joined. -/
structure RejectsAbsent (engine : Engine) (read : ColumnName → Value) (predicate : Predicate) :
    Prop where
  condition : ∀ condition ∈ predicate.condition, condition.truth engine read = .unknown
  joins : predicate.condition = .none → predicate.joins = []

variable {engine : Engine} {read : ColumnName → Value}

theorem rejectsAbsent_none : none.RejectsAbsent engine read where
  condition := by simp [none]
  joins _ := rfl

theorem rejectsAbsent_of_truth {condition : Expr}
    (hcondition : condition.truth engine read = .unknown) (joins : List Join) :
    RejectsAbsent engine read ⟨some condition, joins⟩ where
  condition := by
    rintro _ ⟨rfl⟩
    exact hcondition
  joins hnone := by cases hnone

theorem RejectsAbsent.combine {op : Expr → Expr → Expr}
    (hop : ∀ left right : Expr, left.truth engine read = .unknown →
      right.truth engine read = .unknown → (op left right).truth engine read = .unknown)
    {left right : Predicate} (hleft : left.RejectsAbsent engine read)
    (hright : right.RejectsAbsent engine read) :
    (combine op left right).RejectsAbsent engine read := by
  rcases left with ⟨_ | left, leftJoins⟩
  · obtain rfl : leftJoins = [] := hleft.joins rfl
    rcases right with ⟨_ | right, rightJoins⟩
    · obtain rfl : rightJoins = [] := hright.joins rfl
      exact rejectsAbsent_none
    · exact rejectsAbsent_of_truth (hright.condition right rfl) _
  · rcases right with ⟨_ | right, rightJoins⟩
    · exact rejectsAbsent_of_truth (hleft.condition left rfl) _
    · apply rejectsAbsent_of_truth
      exact hop left right (hleft.condition left rfl) (hright.condition right rfl)

theorem Assembled.rejectsAbsent {parts : List Predicate} {predicate : Predicate}
    (h : Assembled parts predicate) (hparts : ∀ part ∈ parts, part.RejectsAbsent engine read) :
    predicate.RejectsAbsent engine read := by
  refine h.preserves rejectsAbsent_none ?_ ?_ ?_ hparts
  · intro left right hleft hright
    refine hleft.combine ?_ hright
    intro left right hleft hright
    rw [Expr.and, Expr.truth, hleft, hright]
    rfl
  · intro left right hleft hright
    refine hleft.combine ?_ hright
    intro left right hleft hright
    rw [Expr.truth_or, hleft, hright]
    rfl
  · rintro part ⟨hcondition, hjoins⟩
    exact ⟨hcondition, fun hnone => by rw [outerJoins, hjoins hnone, List.map_nil]⟩

/-- Left joins keep the rows that inner joins keep, when what is unknown of the rows without a
partner is all that is asked. -/
theorem keepsAs_outerJoins_iff {row : BaseRow} {predicate : Predicate}
    (hrejects : ∀ join ∈ predicate.joins, row.partner? join = Option.none →
      predicate.RejectsAbsent engine read) :
    predicate.KeepsAs engine row read ↔ predicate.outerJoins.KeepsAs engine row read := by
  constructor
  · rintro ⟨-, hcondition⟩
    refine ⟨?_, hcondition⟩
    intro join hjoin hneeds
    obtain ⟨inner, -, rfl⟩ := List.mem_map.mp hjoin
    cases hneeds
  · rintro ⟨-, hcondition⟩
    refine ⟨?_, hcondition⟩
    intro join hjoin _
    rw [Option.isSome_iff_ne_none]
    intro hpartner
    have habsent := hrejects join hjoin hpartner
    cases hasked : predicate.condition with
    | none =>
        rw [habsent.joins hasked] at hjoin
        cases hjoin
    | some condition =>
        have hyes := hcondition condition hasked
        rw [habsent.condition condition hasked] at hyes
        cases hyes

end Predicate

namespace Field

variable {engine : Engine} {read : ColumnName → Value} {scope : Scope} {field : Field}

theorem rejectsAbsent_matchingParts {columns : List RelatedColumn} {join : Join} {raw : String}
    (habsent : ∀ related ∈ columns, ∀ name, join.column? related.column = some name →
      read name = .null) :
    ∀ part ∈ matchingParts columns join raw, part.RejectsAbsent engine read := by
  intro part hpart
  obtain ⟨related, hrelated, column, condition, hcolumn, hcompiled, rfl⟩ :=
    exists_of_mem_matchingParts hpart
  apply Predicate.rejectsAbsent_of_truth
  exact ColumnName.truth_condition? (habsent related hrelated column hcolumn) hcompiled

section RelatedColumns

variable {columns : List RelatedColumn} (hcolumns : field.relatedColumns? = some columns)
include hcolumns

theorem isRelation_of_relatedColumns? : field.isRelation = true := by
  rw [relatedColumns?] at hcolumns
  split at hcolumns
  next hrelation _ => rw [isRelation, hrelation]; rfl
  next => cases hcolumns

/-- A value that is no question for absent values asks for related columns alone. -/
theorem rejectsAbsent_valuePredicate
    (hown : ∀ relation ∈ field.relation, ∀ related ∈ columns,
      ColumnName.IsOwn related.column relation.tableName)
    (habsent : ∀ join, field.searchJoin? scope = some join →
      ∀ name : ColumnName, name.table = some join.asName → read name = .null)
    {raw : String} (hasked : NullCheck.isAsked raw = false) :
    (field.valuePredicate scope raw).RejectsAbsent engine read := by
  have hmakes : field.Makes scope raw (field.valuePredicate scope raw) := makes_valuePredicate
  generalize field.valuePredicate scope raw = predicate at hmakes ⊢
  cases hmakes with
  | nothing => exact Predicate.rejectsAbsent_none
  | nullCheck _ hcheck => simp [NullCheck.isAsked, hcheck] at hasked
  | own _ _ hnone =>
      rw [hnone] at hcolumns
      cases hcolumns
  | @related others join condition _ hothers hjoin hmatching =>
      obtain rfl : others = columns := by
        rw [hcolumns] at hothers
        exact (Option.some.inj hothers).symm
      obtain ⟨relation, _, key, hrelation, -, -, hmade⟩ := searchJoin?_eq_some.mp hjoin
      have hparts : ∀ part ∈ matchingParts others join raw, part.RejectsAbsent engine read := by
        apply rejectsAbsent_matchingParts
        intro related hrelated name hname
        have htable := hown relation hrelation related hrelated
        rw [← Relation.table_of_join? hmade] at htable
        exact habsent join hjoin name
          (Join.table_of_isOwn (isClean_of_searchJoin? hjoin).asName htable hname)
      have hmatched := hmatching.rejectsAbsent hparts
      exact Predicate.rejectsAbsent_of_truth (hmatched.condition condition rfl) [join]

theorem outerJoins_eq_or_forall_leaves {raw : String} {predicate : Predicate}
    (hpredicate : field.filterPredicate scope raw = .ok predicate) :
    predicate.outerJoins = predicate ∨
      ∀ leaf ∈ filterLeaves raw, NullCheck.isAsked leaf = false := by
  rw [filterPredicate] at hpredicate
  rw [filterLeaves]
  split
  next hplain =>
    rw [if_pos hplain] at hpredicate
    cases hpredicate
    cases hasked : NullCheck.isAsked raw with
    | true => exact Or.inl (outerJoins_valuePredicate hasked)
    | false =>
        right
        intro leaf hleaf
        rw [List.mem_singleton.mp hleaf, hasked]
  next hcomposite =>
    rw [if_neg hcomposite] at hpredicate
    obtain ⟨tree, htree, hpredicate⟩ := bind_eq_ok.mp hpredicate
    rw [htree]
    split at hpredicate
    next =>
      cases hpredicate
      exact Or.inl (Predicate.outerJoins_outerJoins _)
    next hnone =>
      right
      rw [isRelation_of_relatedColumns? hcolumns, Bool.true_and, Bool.not_eq_true] at hnone
      intro leaf hleaf
      exact Bool.eq_false_iff.mpr (List.any_eq_false.mp hnone leaf hleaf)

end RelatedColumns

/-- Every join of a filter is the one that the field is searched through, up to its kind. -/
theorem exists_searchJoin?_of_mem_joins {raw : String} {predicate : Predicate}
    (hpredicate : field.filterPredicate scope raw = .ok predicate) {join : Join}
    (hjoin : join ∈ predicate.joins) :
    ∃ own, field.searchJoin? scope = some own ∧ own.outer = join.outer := by
  have hnamed := Join.named?_of_nodup (nodup_joins_filterPredicate hpredicate) hjoin
  rw [(assembled_filterPredicate hpredicate).named?_joins] at hnamed
  obtain ⟨own, hown, -, houter⟩ := Join.exists_mem_of_named? hnamed
  obtain ⟨part, hpart, hown⟩ := List.mem_flatMap.mp hown
  obtain ⟨leaf, -, rfl⟩ := List.mem_map.mp hpart
  refine ⟨own, ?_, houter⟩
  rcases (@makes_valuePredicate scope field leaf).joins with hjoins | ⟨-, made, hmade, hjoins⟩
  · simp [hjoins] at hown
  · rw [hjoins, List.mem_singleton] at hown
    rw [hown, hmade]

/-- The kind of join that is set does not change what a filter on a related table matches: the
same values are read with inner joins and with left joins, and the two predicates keep the same
rows, whether a row has a related one or none. -/
theorem keepsAs_filterPredicate_iff {columns : List RelatedColumn}
    (hcolumns : field.relatedColumns? = some columns)
    (hown : ∀ relation ∈ field.relation, ∀ related ∈ columns,
      ColumnName.IsOwn related.column relation.tableName) (table raw : String) :
    ((∃ inner, field.filterPredicate ⟨table, .inner⟩ raw = .ok inner) ↔
      ∃ left, field.filterPredicate ⟨table, .left⟩ raw = .ok left) ∧
    ∀ inner left, field.filterPredicate ⟨table, .inner⟩ raw = .ok inner →
      field.filterPredicate ⟨table, .left⟩ raw = .ok left →
      ∀ (engine : Engine) (row : BaseRow) (read : ColumnName → Value),
        row.ReadsBy left.joins read →
        (inner.KeepsAs engine row read ↔ left.KeepsAs engine row read) := by
  rw [filterPredicate_left table .inner]
  cases hinner : field.filterPredicate ⟨table, .inner⟩ raw with
  | error reason => simp [Except.map]
  | ok inner =>
      refine ⟨by simp [Except.map], ?_⟩
      rintro _ _ ⟨rfl⟩ ⟨rfl⟩ engine row read hread
      rcases outerJoins_eq_or_forall_leaves hcolumns hinner with hsame | hleaves
      · rw [hsame]
      · apply Predicate.keepsAs_outerJoins_iff
        intro join hjoin hpartner
        obtain ⟨own, hsearched, houter⟩ := exists_searchJoin?_of_mem_joins hinner hjoin
        have habsent := hread join.outer (List.mem_map_of_mem hjoin) hpartner
        apply (assembled_filterPredicate hinner).rejectsAbsent
        intro part hpart
        obtain ⟨leaf, hleaf, rfl⟩ := List.mem_map.mp hpart
        apply rejectsAbsent_valuePredicate hcolumns hown ?_ (hleaves leaf hleaf)
        intro other hother name hname
        rw [hsearched, Option.some.injEq] at hother
        apply habsent name
        rw [hname, ← hother, ← houter, Join.asName_outer]

end Field

namespace JoinKinds

/-- A company that is found by its name, given with its table, or by its code. -/
def companyField : Field :=
  (Field.foreignKey "users.company_id" "int" "companies" "id").searchedThrough
    "companies.name:string|code:int"

/-- What negated operators ask of a company's columns, users without a company do not fulfil. -/
theorem keeps_filterPredicate_company :
    companyField.relatedColumns? = some [⟨"companies.name", "string"⟩, ⟨"code", "int"⟩] ∧
    (∀ relation ∈ companyField.relation,
      ∀ related ∈ [(⟨"companies.name", "string"⟩ : RelatedColumn), ⟨"code", "int"⟩],
        ColumnName.IsOwn related.column relation.tableName) ∧
    ∃ inner left,
      companyField.filterPredicate ⟨"users", .inner⟩
        (alternatives ["!=acme", "notin:1,2", "notbetween:5,9"]) = .ok inner ∧
      companyField.filterPredicate ⟨"users", .left⟩
        (alternatives ["!=acme", "notin:1,2", "notbetween:5,9"]) = .ok left ∧
      inner.joins.map Join.kind = [.inner] ∧ left.joins.map Join.kind = [.left] ∧
      ∀ (engine : Engine) (row : BaseRow),
        inner.Keeps engine "users" row ↔ left.Keeps engine "users" row := by
  have hplain : ∀ raw ∈ ["!=acme", "notin:1,2", "notbetween:5,9"], IsPlainValue raw := by decide
  have hown : ∀ relation ∈ companyField.relation,
      ∀ related ∈ [(⟨"companies.name", "string"⟩ : RelatedColumn), ⟨"code", "int"⟩],
        ColumnName.IsOwn related.column relation.tableName := by decide
  obtain ⟨inner, hinner, hkind, hleftKind, hnames⟩ : ∃ inner : Predicate,
      companyField.filterPredicate ⟨"users", .inner⟩
        (alternatives ["!=acme", "notin:1,2", "notbetween:5,9"]) = .ok inner ∧
      inner.joins.map Join.kind = [.inner] ∧ inner.outerJoins.joins.map Join.kind = [.left] ∧
      inner.joins.map Join.asName = ["companies_company_id"] :=
    ⟨_, Field.filterPredicate_alternatives hplain, by decide, by decide, by decide⟩
  have hleft : companyField.filterPredicate ⟨"users", .left⟩
      (alternatives ["!=acme", "notin:1,2", "notbetween:5,9"]) = .ok inner.outerJoins := by
    rw [Field.filterPredicate_left "users" .inner, hinner]
    rfl
  refine ⟨rfl, hown, inner, inner.outerJoins, hinner, hleft, hkind, hleftKind, ?_⟩
  intro engine row
  have hread : row.read "users" inner.outerJoins.joins = row.read "users" inner.joins :=
    row.read_map_outer "users" inner.joins
  have hreads : row.ReadsBy inner.outerJoins.joins (row.read "users" inner.joins) := by
    rw [← hread]
    apply row.readsBy_read (Field.nodup_joins_filterPredicate hleft)
    intro join hjoin
    have hname := List.mem_map_of_mem hjoin (f := Join.asName)
    rw [Predicate.outerJoins, Join.map_asName_map_outer, hnames, List.mem_singleton] at hname
    rw [hname]
    decide
  have hkeeps := (Field.keepsAs_filterPredicate_iff rfl hown "users" _).2 inner _ hinner hleft
    engine row _ hreads
  rw [Predicate.Keeps, Predicate.Keeps, hread]
  exact hkeeps

end JoinKinds

end FilterSql

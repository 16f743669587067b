/-
What the global search finds.

The joins of all fields that are searched through related columns stand in every search, so
a row is found when it passes all of these joins and one field alone keeps it.  With left
joins every row passes, and the search is the union of its fields.
-/
import Mathlib.Data.List.Nodup
import FilterSql.Proofs.Filter.FieldValue
import FilterSql.Proofs.Filter.Rows
import FilterSql.Proofs.Text.Cuts

namespace FilterSql

/-- Among these joins, those of one name are one join. -/
def OnePerName (Q : Join → Prop) : Prop :=
  ∀ first second, Q first → Q second → first.asName = second.asName → first = second

section OnePerName

variable {Q : Join → Prop} (hone : OnePerName Q)
include hone

theorem OnePerName.mem_insertInto {join found : Join} {others : List Join} (hjoin : Q join)
    (hothers : ∀ other ∈ others, Q other) :
    found ∈ join.insertInto others ↔ found = join ∨ found ∈ others := by
  induction others with
  | nil => simp [Join.insertInto]
  | cons other others ih =>
      have hrest := ih fun next hnext => hothers next (List.mem_cons_of_mem _ hnext)
      rw [Join.insertInto]
      split
      next hname =>
        have hsame : other = join := hone other join (hothers other List.mem_cons_self) hjoin hname
        subst hsame
        have hkept : (if other.kind = .left then other.outer else other) = other := by
          split
          next hleft => rw [Join.outer, ← hleft]
          next => rfl
        rw [hkept, List.mem_cons]
        tauto
      next =>
        rw [List.mem_cons, List.mem_cons, hrest]
        tauto

theorem OnePerName.mem_foldl_insertInto {added start : List Join} {found : Join}
    (hadded : ∀ join ∈ added, Q join) (hstart : ∀ join ∈ start, Q join) :
    found ∈ added.foldl (fun joins join => join.insertInto joins) start ↔
      found ∈ start ∨ found ∈ added := by
  induction added generalizing start with
  | nil => simp
  | cons join added ih =>
      have hjoin := hadded join List.mem_cons_self
      have hinserted : ∀ next ∈ join.insertInto start, Q next := by
        intro next hnext
        rcases (hone.mem_insertInto hjoin hstart).mp hnext with rfl | hnext
        · exact hjoin
        · exact hstart next hnext
      rw [List.foldl_cons, ih (fun next hnext => hadded next (List.mem_cons_of_mem _ hnext))
        hinserted, hone.mem_insertInto hjoin hstart, List.mem_cons]
      tauto

theorem OnePerName.find?_eq_some {joins : List Join} (hjoins : ∀ join ∈ joins, Q join)
    {join : Join} (hjoin : join ∈ joins) :
    joins.find? (fun other => some join.asName = some other.asName) = some join := by
  cases hfound : joins.find? (fun other => some join.asName = some other.asName) with
  | none =>
      have habsent := List.find?_eq_none.mp hfound join hjoin
      simp at habsent
  | some other =>
      have hname := List.find?_some hfound
      have hother := hjoins other (List.mem_of_find?_eq_some hfound)
      have hsame := hone join other (hjoins join hjoin) hother (by simpa using hname)
      rw [hsame]

end OnePerName

namespace Predicate

/-- The condition is there and true. -/
def Matches (engine : Engine) (read : ColumnName → Value) (predicate : Predicate) : Prop :=
  ∃ condition ∈ predicate.condition, condition.truth engine read = .yes

variable {engine : Engine} {read : ColumnName → Value}

theorem matches_or {left right : Predicate} :
    (left.or right).Matches engine read ↔
      left.Matches engine read ∨ right.Matches engine read := by
  rcases left with ⟨_ | left, leftJoins⟩ <;> rcases right with ⟨_ | right, rightJoins⟩ <;>
    simp [Matches, Predicate.or, combine, mergeConditions]

theorem isSome_condition_or {left right : Predicate} :
    (left.or right).condition.isSome = true ↔
      left.condition.isSome = true ∨ right.condition.isSome = true := by
  rcases left with ⟨_ | left, leftJoins⟩ <;> rcases right with ⟨_ | right, rightJoins⟩ <;>
    simp [Predicate.or, combine, mergeConditions]

/-- What holds of one of two predicates together when it holds of one of them, holds of any of
several in the same way. -/
theorem any_iff {R : Predicate → Prop} (hnone : ¬ R none)
    (hor : ∀ left right : Predicate, R (left.or right) ↔ R left ∨ R right)
    {predicates : List Predicate} :
    R (any predicates) ↔ ∃ predicate ∈ predicates, R predicate := by
  have hfold : ∀ start : Predicate, R (predicates.foldl Predicate.or start) ↔
      R start ∨ ∃ predicate ∈ predicates, R predicate := by
    induction predicates with
    | nil => simp
    | cons predicate predicates ih =>
        intro start
        rw [List.foldl_cons, ih, hor, List.exists_mem_cons_iff, or_assoc]
  rw [any, hfold]
  exact or_iff_right hnone

theorem matches_any {predicates : List Predicate} :
    (any predicates).Matches engine read ↔
      ∃ predicate ∈ predicates, predicate.Matches engine read := by
  refine any_iff (R := fun predicate => predicate.Matches engine read) ?_ ?_
  · simp [Matches, none]
  · exact fun _ _ => matches_or

theorem isSome_condition_any {predicates : List Predicate} :
    (any predicates).condition.isSome = true ↔
      ∃ predicate ∈ predicates, predicate.condition.isSome = true := by
  refine any_iff (R := fun predicate => predicate.condition.isSome = true) ?_ ?_
  · simp [none]
  · exact fun _ _ => isSome_condition_or

theorem mem_joins_any {Q : Join → Prop} (hone : OnePerName Q) {predicates : List Predicate}
    (hpredicates : ∀ predicate ∈ predicates, ∀ join ∈ predicate.joins, Q join) :
    (∀ join ∈ (any predicates).joins, Q join) ∧
      ∀ found, found ∈ (any predicates).joins ↔
        ∃ predicate ∈ predicates, found ∈ predicate.joins := by
  have hfold : ∀ (predicates : List Predicate) (start : Predicate),
      (∀ predicate ∈ predicates, ∀ join ∈ predicate.joins, Q join) →
      (∀ join ∈ start.joins, Q join) →
      ∀ found, found ∈ (predicates.foldl Predicate.or start).joins ↔
        found ∈ start.joins ∨ ∃ predicate ∈ predicates, found ∈ predicate.joins := by
    intro predicates
    induction predicates with
    | nil => simp
    | cons predicate predicates ih =>
        intro start hall hstart found
        have hfirst := hall predicate List.mem_cons_self
        have hstep : ∀ join, join ∈ (start.or predicate).joins ↔
            join ∈ start.joins ∨ join ∈ predicate.joins :=
          fun join => hone.mem_foldl_insertInto hfirst hstart
        have hnext : ∀ join ∈ (start.or predicate).joins, Q join := by
          intro join hjoin
          rcases (hstep join).mp hjoin with hjoin | hjoin
          · exact hstart join hjoin
          · exact hfirst join hjoin
        rw [List.foldl_cons, ih _ (fun next hmem => hall next (List.mem_cons_of_mem _ hmem)) hnext,
          hstep, List.exists_mem_cons_iff, or_assoc]
  have hmem := hfold predicates none hpredicates (by simp [none])
  have hjoins : ∀ found, found ∈ (any predicates).joins ↔
      ∃ predicate ∈ predicates, found ∈ predicate.joins := by
    intro found
    rw [any, hmem]
    simp [none]
  refine ⟨?_, hjoins⟩
  intro join hjoin
  obtain ⟨predicate, hpredicate, hmember⟩ := (hjoins join).mp hjoin
  exact hpredicates predicate hpredicate join hmember

end Predicate

theorem BaseRow.read_of_base (row : BaseRow) {base : String} (first second : List Join)
    {node : Expr} (hnode : node.IsOfTable base) :
    Expr.ReadsAlike (row.read base first) (row.read base second) node := by
  cases node with
  | column name =>
      have htable : name.table = some base := hnode
      simp [Expr.ReadsAlike, BaseRow.read, htable]
  | star | value | binary | call | callStar | named | castText | inList | between | isNull
  | datePart => trivial

theorem BaseRow.read_of_join (row : BaseRow) {base : String} {Q : Join → Prop}
    (hone : OnePerName Q) {first second : List Join} (hfirst : ∀ join ∈ first, Q join)
    (hsecond : ∀ join ∈ second, Q join) {join : Join} (hmemFirst : join ∈ first)
    (hmemSecond : join ∈ second) {node : Expr} (hnode : node.IsOfTable join.asName) :
    Expr.ReadsAlike (row.read base first) (row.read base second) node := by
  cases node with
  | column name =>
      have htable : name.table = some join.asName := hnode
      have hfindFirst := hone.find?_eq_some hfirst hmemFirst
      have hfindSecond := hone.find?_eq_some hsecond hmemSecond
      simp only [Expr.ReadsAlike, BaseRow.read, htable, hfindFirst, hfindSecond]
  | star | value | binary | call | callStar | named | castText | inList | between | isNull
  | datePart => trivial

section Search

/-- A join that one of the fields is searched through. -/
def IsSearchJoin (scope : Scope) (fields : List Field) (join : Join) : Prop :=
  ∃ field ∈ fields, field.searchJoin? scope = some join

/-- Some field alone keeps the row, or no field makes a condition of the term. -/
def FieldsKeep (engine : Engine) (scope : Scope) (fields : List Field) (term : String)
    (row : BaseRow) : Prop :=
  (∀ field ∈ fields, (field.valuePredicate scope term).condition = none) ∨
    ∃ field ∈ fields, (field.valuePredicate scope term).condition.isSome = true ∧
      (field.valuePredicate scope term).Keeps engine (sanitized scope.table) row

instance (engine : Engine) (scope : Scope) (fields : List Field) (term : String) (row : BaseRow) :
    Decidable (FieldsKeep engine scope fields term row) :=
  inferInstanceAs (Decidable (_ ∨ _))

variable (engine : Engine) (row : BaseRow)
variable {scope : Scope} {fields : List Field} {term : String}

theorem onePerName_of_nodup
    (hnodup : ((fields.filterMap (Field.searchJoin? scope)).map Join.asName).Nodup) :
    OnePerName (IsSearchJoin scope fields) := by
  intro first second hfirst hsecond hname
  exact List.inj_on_of_nodup_map hnodup (List.mem_filterMap.mpr hfirst)
    (List.mem_filterMap.mpr hsecond) hname

theorem condition_searchPredicate (hterm : Text.isBlankText term = false) :
    (searchPredicate scope fields term).condition =
      (Predicate.any (fields.map fun field => field.valuePredicate scope term)).condition := by
  have hempty : (Text.trimmed term).isEmpty = false := by rw [Text.isEmpty_trimmed, hterm]
  simp [searchPredicate, hempty, Field.valuePredicate_trimmed, Predicate.foldl_withJoin,
    Predicate.and, Predicate.combine, Predicate.none, Predicate.mergeConditions]

theorem joins_valuePredicate (hbare : ∀ field ∈ fields, field.HasBareNames) :
    ∀ field ∈ fields, ∀ join ∈ (field.valuePredicate scope term).joins,
      IsSearchJoin scope fields join := by
  intro field hfield join hjoin
  rcases Field.valuePredicate_cases (hbare field hfield) term with
    ⟨hjoins, -⟩ | ⟨own, hown, hjoins, -⟩
  · rw [hjoins] at hjoin
    cases hjoin
  · rw [hjoins, List.mem_singleton] at hjoin
    subst hjoin
    exact ⟨field, hfield, hown⟩

theorem mem_joins_searchPredicate (hbare : ∀ field ∈ fields, field.HasBareNames)
    (hone : OnePerName (IsSearchJoin scope fields)) (hterm : Text.isBlankText term = false)
    {join : Join} :
    join ∈ (searchPredicate scope fields term).joins ↔ IsSearchJoin scope fields join := by
  have hempty : (Text.trimmed term).isEmpty = false := by rw [Text.isEmpty_trimmed, hterm]
  have hsearched : ∀ join ∈ fields.filterMap (Field.searchJoin? scope),
      IsSearchJoin scope fields join := by
    intro join hjoin
    exact List.mem_filterMap.mp hjoin
  have hstart : ∀ join, join ∈ (fields.filterMap (Field.searchJoin? scope)).foldl
      (fun joins join => join.insertInto joins) [] ↔ IsSearchJoin scope fields join := by
    intro join
    rw [hone.mem_foldl_insertInto hsearched (by simp)]
    simp [IsSearchJoin, List.mem_filterMap]
  have hvalues : ∀ predicate ∈ fields.map (fun field => field.valuePredicate scope term),
      ∀ join ∈ predicate.joins, IsSearchJoin scope fields join := by
    intro predicate hpredicate
    obtain ⟨field, hfield, rfl⟩ := List.mem_map.mp hpredicate
    exact joins_valuePredicate hbare field hfield
  obtain ⟨hmatching, -⟩ := Predicate.mem_joins_any hone hvalues
  simp only [searchPredicate, hempty, Bool.false_eq_true, if_false, Field.valuePredicate_trimmed,
    Predicate.foldl_withJoin, Predicate.and, Predicate.combine, Predicate.none]
  -- The fields bring along no join that does not stand first already.
  rw [hone.mem_foldl_insertInto hmatching fun join hjoin => (hstart join).mp hjoin, hstart]
  exact or_iff_left_of_imp fun hjoin => hmatching join hjoin

theorem truth_searchPredicate (hbare : ∀ field ∈ fields, field.HasBareNames)
    (hone : OnePerName (IsSearchJoin scope fields)) (hterm : Text.isBlankText term = false)
    {field : Field} (hfield : field ∈ fields) :
    ∀ condition ∈ (field.valuePredicate scope term).condition,
      condition.truth engine
          (row.read (sanitized scope.table) (searchPredicate scope fields term).joins) =
        condition.truth engine
          (row.read (sanitized scope.table) (field.valuePredicate scope term).joins) := by
  intro condition hcondition
  apply Expr.truth_congr
  rcases Field.valuePredicate_cases (hbare field hfield) term with
    ⟨-, hbase⟩ | ⟨own, hown, hjoins, hrelated⟩
  · exact (hbase condition hcondition).imp fun _ hnode => row.read_of_base _ _ hnode
  · have hall : ∀ join ∈ (searchPredicate scope fields term).joins,
        IsSearchJoin scope fields join :=
      fun join hjoin => (mem_joins_searchPredicate hbare hone hterm).mp hjoin
    have hmem : own ∈ (searchPredicate scope fields term).joins :=
      (mem_joins_searchPredicate hbare hone hterm).mpr ⟨field, hfield, hown⟩
    have hown : own ∈ (field.valuePredicate scope term).joins := by
      rw [hjoins]
      exact List.mem_singleton_self own
    exact (hrelated condition hcondition).imp fun _ hnode =>
      row.read_of_join hone hall (joins_valuePredicate hbare field hfield) hmem hown hnode

theorem keeps_valuePredicate_iff_matches (hbare : ∀ field ∈ fields, field.HasBareNames)
    (hone : OnePerName (IsSearchJoin scope fields)) (hterm : Text.isBlankText term = false)
    (hpasses : ∀ join, IsSearchJoin scope fields join → row.Passes join)
    {field : Field} (hfield : field ∈ fields) :
    (field.valuePredicate scope term).condition.isSome = true ∧
        (field.valuePredicate scope term).Keeps engine (sanitized scope.table) row ↔
      (field.valuePredicate scope term).Matches engine
        (row.read (sanitized scope.table) (searchPredicate scope fields term).joins) := by
  have htruth := truth_searchPredicate engine row hbare hone hterm hfield
  constructor
  · rintro ⟨hsome, -, hkeeps⟩
    obtain ⟨condition, hcondition⟩ := Option.isSome_iff_exists.mp hsome
    refine ⟨condition, hcondition, ?_⟩
    rw [htruth condition hcondition]
    exact hkeeps condition hcondition
  · rintro ⟨condition, hcondition, hyes⟩
    refine ⟨Option.isSome_iff_exists.mpr ⟨condition, hcondition⟩, ?_, ?_⟩
    · intro join hjoin
      exact hpasses join (joins_valuePredicate hbare field hfield join hjoin)
    · intro other hother
      rw [← htruth other hother]
      rw [Option.mem_def] at hcondition hother
      rw [hcondition, Option.some.injEq] at hother
      exact hother ▸ hyes

theorem forall_condition_iff_fieldsKeep (hbare : ∀ field ∈ fields, field.HasBareNames)
    (hone : OnePerName (IsSearchJoin scope fields)) (hterm : Text.isBlankText term = false)
    (hpasses : ∀ join, IsSearchJoin scope fields join → row.Passes join) :
    (∀ condition ∈ (searchPredicate scope fields term).condition,
        condition.truth engine
          (row.read (sanitized scope.table) (searchPredicate scope fields term).joins) = .yes) ↔
      FieldsKeep engine scope fields term row := by
  have hmatches := fun field (hfield : field ∈ fields) =>
    keeps_valuePredicate_iff_matches engine row hbare hone hterm hpasses hfield
  have hmember : ∀ field ∈ fields, field.valuePredicate scope term ∈
      fields.map fun field => field.valuePredicate scope term :=
    fun field hfield => List.mem_map.mpr ⟨field, hfield, rfl⟩
  rw [condition_searchPredicate hterm]
  constructor
  · intro hyes
    cases hany : (Predicate.any
        (fields.map fun field => field.valuePredicate scope term)).condition with
    | none =>
        left
        intro field hfield
        rw [← Option.not_isSome_iff_eq_none]
        intro hsome
        have hanySome := Predicate.isSome_condition_any.mpr ⟨_, hmember field hfield, hsome⟩
        simp [hany] at hanySome
    | some condition =>
        obtain ⟨predicate, hpredicate, hfound⟩ :=
          Predicate.matches_any.mp ⟨condition, hany, hyes condition hany⟩
        obtain ⟨field, hfield, rfl⟩ := List.mem_map.mp hpredicate
        exact Or.inr ⟨field, hfield, (hmatches field hfield).mpr hfound⟩
  · rintro (hnone | ⟨field, hfield, hkeeps⟩) condition hcondition
    · obtain ⟨predicate, hpredicate, hsome⟩ :=
        Predicate.isSome_condition_any.mp (Option.isSome_iff_exists.mpr ⟨condition, hcondition⟩)
      obtain ⟨field, hfield, rfl⟩ := List.mem_map.mp hpredicate
      simp [hnone field hfield] at hsome
    · have hfound := (hmatches field hfield).mp hkeeps
      obtain ⟨other, hother, hyes⟩ :=
        Predicate.matches_any.mpr ⟨_, hmember field hfield, hfound⟩
      rw [Option.mem_def] at hcondition hother
      rw [hcondition, Option.some.injEq] at hother
      exact hother ▸ hyes

theorem kind_of_searchJoin? {field : Field} {join : Join}
    (hjoin : field.searchJoin? scope = some join) : join.kind = scope.relationJoin := by
  obtain ⟨relation, columns, key, -, -, -, hmade⟩ := Field.searchJoin?_eq_some.mp hjoin
  obtain ⟨-, target, -, rfl⟩ := Relation.join?_eq_some.mp hmade
  rfl

/-- A row is found when it passes the joins of all fields that are searched through related
columns, and one field alone keeps it.  With left joins the search is the union of its fields. -/
theorem keeps_searchPredicate_iff (hbare : ∀ field ∈ fields, field.HasBareNames)
    (hone : OnePerName (IsSearchJoin scope fields)) (hterm : Text.isBlankText term = false) :
    ((searchPredicate scope fields term).Keeps engine (sanitized scope.table) row ↔
      (∀ join, IsSearchJoin scope fields join → row.Passes join) ∧
        FieldsKeep engine scope fields term row) ∧
    (scope.relationJoin = .left →
      ((searchPredicate scope fields term).Keeps engine (sanitized scope.table) row ↔
        FieldsKeep engine scope fields term row)) := by
  have hkeeps : (searchPredicate scope fields term).Keeps engine (sanitized scope.table) row ↔
      (∀ join, IsSearchJoin scope fields join → row.Passes join) ∧
        FieldsKeep engine scope fields term row := by
    have hjoins : (∀ join ∈ (searchPredicate scope fields term).joins, row.Passes join) ↔
        ∀ join, IsSearchJoin scope fields join → row.Passes join :=
      forall_congr' fun join => imp_congr_left (mem_joins_searchPredicate hbare hone hterm)
    rw [Predicate.Keeps, hjoins]
    exact and_congr_right (forall_condition_iff_fieldsKeep engine row hbare hone hterm)
  refine ⟨hkeeps, ?_⟩
  intro hleft
  rw [hkeeps]
  apply and_iff_right
  rintro join ⟨field, -, hjoin⟩ hneeds
  rw [kind_of_searchJoin? hjoin, hleft] at hneeds
  cases hneeds

end Search

namespace Search

/-- A column of the base table that is searched by itself. -/
def nameField : Field :=
  (Field.ofColumn "name" "string").searched

/-- A foreign key that is searched through the name of what it points to. -/
def keyField (dbColumn belongsTo : String) : Field :=
  (Field.foreignKey dbColumn "int" belongsTo "id").searchedThrough "name:string"

/-- A row with this name, and with the names of its related rows by their tables. -/
def rowOfNames (own : Option String) (related : String → Option String) : BaseRow where
  value column := if column = "name" then own.elim .null .string else .null
  related table _ := (related table).map fun text _ => .string text

theorem hasBareNames_nameField : nameField.HasBareNames where
  dbColumn := by decide
  related := by decide

theorem hasBareNames_keyField {dbColumn belongsTo : String}
    (hbare : ColumnName.namesTable dbColumn = false) : (keyField dbColumn belongsTo).HasBareNames where
  dbColumn := by
    rintro column ⟨⟩
    exact hbare
  related := by
    rintro columns ⟨⟩
    decide

/-- A post is found by the name of its author, though it belongs to no company. -/
theorem keeps_searchPredicate_of_author :
    (∀ field ∈ [nameField, keyField "author_id" "users", keyField "company_id" "companies"],
      field.HasBareNames) ∧
    OnePerName (IsSearchJoin ⟨"posts", .left⟩
      [nameField, keyField "author_id" "users", keyField "company_id" "companies"]) ∧
    Text.isBlankText " Ann " = false ∧
    (searchPredicate ⟨"posts", .left⟩
      [nameField, keyField "author_id" "users", keyField "company_id" "companies"] " Ann ").Keeps
        .plain "posts" (rowOfNames (some "Notes") fun table =>
          if table = "users" then some "Annette" else none) := by
  have hbare : ∀ field ∈ [nameField, keyField "author_id" "users",
      keyField "company_id" "companies"], field.HasBareNames := by
    simp only [List.forall_mem_cons, List.not_mem_nil, false_imp_iff, implies_true, and_true]
    exact ⟨hasBareNames_nameField, hasBareNames_keyField rfl, hasBareNames_keyField rfl⟩
  have hone : OnePerName (IsSearchJoin ⟨"posts", .left⟩
      [nameField, keyField "author_id" "users", keyField "company_id" "companies"]) :=
    onePerName_of_nodup (by decide)
  have hterm : Text.isBlankText " Ann " = false := by decide
  refine ⟨hbare, hone, hterm, ?_⟩
  exact ((keeps_searchPredicate_iff .plain _ hbare hone hterm).2 rfl).mpr (by decide)

/-- The search is not always the union of its fields.  A row that its own name is found by is
lost when an inner join finds no partner, and so is one that is looked for by an absent key;
and of two joins that go by one name only the first is made. -/
theorem not_keeps_searchPredicate_of_fieldsKeep :
    (FieldsKeep .plain ⟨"users", .inner⟩ [nameField, keyField "company_id" "companies"] "acme"
        (rowOfNames (some "Acme") fun _ => none) ∧
      ¬ (searchPredicate ⟨"users", .inner⟩ [nameField, keyField "company_id" "companies"]
        "acme").Keeps .plain "users" (rowOfNames (some "Acme") fun _ => none)) ∧
    (FieldsKeep .plain ⟨"users", .inner⟩ [nameField, keyField "company_id" "companies"] "null"
        (rowOfNames (some "Acme") fun _ => none) ∧
      ¬ (searchPredicate ⟨"users", .inner⟩ [nameField, keyField "company_id" "companies"]
        "null").Keeps .plain "users" (rowOfNames (some "Acme") fun _ => none)) ∧
    (FieldsKeep .plain ⟨"users", .left⟩ [keyField "team_id" "crm", keyField "id" "crm.team"] "acme"
        (rowOfNames none fun table => if table = "crm.team" then some "Acme" else some "Other") ∧
      ¬ (searchPredicate ⟨"users", .left⟩ [keyField "team_id" "crm", keyField "id" "crm.team"]
        "acme").Keeps .plain "users"
          (rowOfNames none fun table => if table = "crm.team" then some "Acme" else some "Other")) := by
  decide

end Search

end FilterSql

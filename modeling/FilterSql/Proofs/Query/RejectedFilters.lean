/-
Filters that nothing comes of.

A value that a field takes nothing of makes no condition, be it alone or in any place of an
expression, and what has no condition has no join either.  A key all of whose values are read
and come to nothing can be taken out of a request: the query stays the same.
-/
import FilterSql.Proofs.Query.Meaning

namespace FilterSql

namespace Predicate

theorem condition_combine_eq_none_iff {op : Expr → Expr → Expr} {left right : Predicate} :
    (combine op left right).condition = .none ↔
      left.condition = .none ∧ right.condition = .none := by
  rcases left with ⟨_ | left, leftJoins⟩ <;> rcases right with ⟨_ | right, rightJoins⟩ <;>
    simp [combine, mergeConditions]

/-- What is put together has a condition as soon as one of its parts has. -/
theorem Assembled.condition_eq_none_iff {parts : List Predicate} {predicate : Predicate}
    (h : Assembled parts predicate) :
    predicate.condition = .none ↔ ∀ part ∈ parts, part.condition = .none := by
  induction h with
  | none => simp [Predicate.none]
  | part predicate => simp
  | and _ _ ihleft ihright | or _ _ ihleft ihright =>
      rw [List.forall_mem_append, ← ihleft, ← ihright]
      exact condition_combine_eq_none_iff
  | outer _ ih => exact ih

/-- Nothing comes of parts that are nothing. -/
theorem Assembled.eq_none {parts : List Predicate} {predicate : Predicate}
    (h : Assembled parts predicate) (hparts : ∀ part ∈ parts, part = .none) :
    predicate = .none := by
  refine h.preserves (R := fun part => part = .none) rfl ?_ ?_ ?_ hparts
  · rintro _ _ rfl rfl
    rfl
  · rintro _ _ rfl rfl
    rfl
  · rintro _ rfl
    rfl

end Predicate

namespace Field

variable {scope : Scope} {field : Field} {raw : String} {predicate : Predicate}

theorem Makes.eq_none (h : field.Makes scope raw predicate) (hnone : predicate.condition = none) :
    predicate = .none := by
  cases h with
  | nothing => rfl
  | nullCheck => cases hnone
  | own => exact congrArg Predicate.ofOption hnone
  | related => cases hnone

/-- Nothing comes of a value that can be read exactly when none of its plain values makes a
condition. -/
theorem condition_eq_none_iff (hpredicate : field.filterPredicate scope raw = .ok predicate) :
    predicate.condition = none ↔
      ∀ leaf ∈ filterLeaves raw, (field.valuePredicate scope leaf).condition = none := by
  rw [(assembled_filterPredicate hpredicate).condition_eq_none_iff, filterParts,
    List.forall_mem_map]

/-- Without a condition a value leaves no join. -/
theorem eq_none_of_condition (hpredicate : field.filterPredicate scope raw = .ok predicate)
    (hnone : predicate.condition = none) : predicate = .none := by
  apply (assembled_filterPredicate hpredicate).eq_none
  intro part hpart
  obtain ⟨leaf, hleaf, rfl⟩ := List.mem_map.mp hpart
  exact makes_valuePredicate.eq_none ((condition_eq_none_iff hpredicate).mp hnone leaf hleaf)

variable (scope field) in
/-- All of the values can be read, and the field makes no condition of any. -/
def Rejects (values : List String) : Prop :=
  ∀ raw ∈ values, ∃ predicate,
    field.filterPredicate scope raw = .ok predicate ∧ predicate.condition = none

end Field

namespace Schema

variable {schema : Schema} {config : Config} {allowed : Option (List String)} {key : String}

theorem fieldValues_of_rejects {field : Field} {values : List String}
    (hrejects : field.Rejects (config.scope schema.tableName) values) :
    schema.fieldValues config key field values = .ok .none := by
  have hread : List.Forall₂
      (fun raw part => field.filterPredicate (config.scope schema.tableName) raw = .ok part)
      values (values.map fun _ => .none) := by
    rw [List.forall₂_map_right_iff, List.forall₂_same]
    intro raw hraw
    obtain ⟨predicate, hpredicate, hnone⟩ := hrejects raw hraw
    rw [hpredicate, Field.eq_none_of_condition hpredicate hnone]
  have hnothing : Predicate.any (values.map fun _ => .none) = .none :=
    (Predicate.Assembled.any_map (fun _ => .none) values).eq_none (by simp)
  exact fieldValues_eq_ok.mpr ⟨_, hread, hnothing⟩

/-- A key asks for nothing when its field, if it stands for one, makes nothing of its values. -/
theorem keyPredicate_of_rejects {value : FilterValue} (hsearch : key ≠ config.searchKey)
    (hrejects : ∀ field, schema.MayFilter allowed key field →
      field.Rejects (config.scope schema.tableName) (usableValues config value)) :
    schema.keyPredicate config (schema.filterableFields allowed) key value = .ok .none := by
  by_cases hfield : ∃ field, schema.MayFilter allowed key field
  · obtain ⟨field, hfield⟩ := hfield
    simp only [keyPredicate, if_neg hsearch, valueNamed?_filterableFields_iff.mpr hfield]
    exact fieldValues_of_rejects (hrejects field hfield)
  · exact keyPredicate_of_not_mayFilter hsearch (not_exists.mp hfield) value

end Schema

namespace Query

variable {schema : Schema} {request : Request} {config : Config} {dialect : Dialect}

/-- What a value makes of a field has a condition wherever it has a join.  So a key, not that of
the search, leaves no trace when its values can be read and its field makes no condition of any:
the request gives the query that it gives without the key, with the same joins, parameters and
placeholders. -/
theorem ofRequest_withoutFilter :
    (∀ (scope : Scope) (field : Field) (raw : String) (predicate : Predicate),
      field.filterPredicate scope raw = .ok predicate → predicate.joins ≠ [] →
        ∃ condition, predicate.condition = some condition) ∧
    ∀ key, key ≠ config.searchKey →
      (∀ value ∈ request.filters.find? key, ∀ field,
        schema.MayFilter request.filterable key field →
          field.Rejects (config.scope schema.tableName) (Schema.usableValues config value)) →
      ofRequest schema request config dialect =
        ofRequest schema (request.withoutFilter key) config dialect := by
  constructor
  · intro scope field raw predicate hpredicate hjoins
    rw [← Option.ne_none_iff_exists']
    intro hnone
    apply hjoins
    rw [Field.eq_none_of_condition hpredicate hnone]
    rfl
  · intro key hsearch hrejects
    rw [ofRequest_eq_map, ofRequest_eq_map, Schema.requestPredicate_withoutFilter]
    · rfl
    · exact fun value hvalue => Schema.keyPredicate_of_rejects hsearch (hrejects value hvalue)

end Query

namespace RejectedFilters

/-- A company that is found by its numbers. -/
def company : Field :=
  (Field.foreignKey "company_id" "int" "companies" "id").searchedThrough "age:int|size:int"

/-- Users with a name and a company. -/
def users : Schema :=
  ((Schema.ofTable "users").withField "company" company).withField "name"
    (Field.ofColumn "name" "string").searched

/-- A request for a name, and for a company by words. -/
def askUsers : Request :=
  ((Request.empty.addFilter "company" "(x||y)&&z").addFilter "company" "old").addFilter
    "name" "bob"

theorem rejects_company :
    company.Rejects (Config.standard.scope "users") ["(x||y)&&z", "old"] := by
  have htree : Tree.ofText "(x||y)&&z" =
      .ok (.and (.or (.leaf "x") (.leaf "y")) (.leaf "z")) := by decide +kernel
  intro raw hraw
  rcases List.mem_pair.mp hraw with rfl | rfl
  · refine ⟨.none, ?_, rfl⟩
    rw [Field.filterPredicate, if_neg (by decide), htree]
    rfl
  · exact ⟨.none, rfl, rfl⟩

/-- No number is a word, so these words leave the company unjoined; a number joins it, with a
condition on it. -/
theorem ofRequest_withoutFilter_users :
    (∃ predicate, company.filterPredicate (Config.standard.scope "users") "7" = .ok predicate ∧
      predicate.joins ≠ [] ∧ ∃ condition, predicate.condition = some condition) ∧
    ("company" ≠ Config.standard.searchKey ∧
      ∀ value ∈ askUsers.filters.find? "company", ∀ field,
        users.MayFilter none "company" field →
          field.Rejects (Config.standard.scope "users") (Schema.usableValues .standard value)) ∧
    Query.ofRequest users askUsers .standard .postgres =
      Query.ofRequest users (askUsers.withoutFilter "company") .standard .postgres := by
  have hsearch : "company" ≠ Config.standard.searchKey := by decide
  have hrejects : ∀ value ∈ askUsers.filters.find? "company", ∀ field,
      users.MayFilter none "company" field →
        field.Rejects (Config.standard.scope "users") (Schema.usableValues .standard value) := by
    have hvalues : Schema.usableValues .standard (.many ["(x||y)&&z", "old"]) =
        ["(x||y)&&z", "old"] := by decide +kernel
    intro value hvalue field hfield
    obtain rfl : FilterValue.many ["(x||y)&&z", "old"] = value := Option.some.inj hvalue
    obtain rfl : company = field := Option.some.inj hfield.named
    rw [hvalues]
    exact rejects_company
  obtain ⟨hcondition, hsame⟩ := @Query.ofRequest_withoutFilter users askUsers .standard .postgres
  refine ⟨⟨_, rfl, ?_, ?_⟩, ⟨hsearch, hrejects⟩, hsame "company" hsearch hrejects⟩
  · exact List.cons_ne_nil _ _
  · exact hcondition _ company "7" _ rfl (List.cons_ne_nil _ _)

end RejectedFilters

end FilterSql

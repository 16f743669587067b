/-
Which requests fail.

A value is malformed when it is used, has to be read as an expression and cannot be.  A
request fails exactly when a key that stands for a field to filter on has such a value, and
it fails as the first of these keys, in the order of their bytes, and as the first of its
malformed values.  Nothing else makes a request fail.
-/
import FilterSql.Proofs.Query.Clauses
import FilterSql.Proofs.Query.FilterableFields
import FilterSql.Proofs.Text.ByteOrder

namespace FilterSql

/-- A value of a filter key is used, has to be read as an expression, and cannot be. -/
structure Config.IsMalformed (config : Config) (raw : String) : Prop where
  notBlank : Text.isBlankText raw = false
  fits : raw.utf8ByteSize ≤ config.maxFilterLength.toNat
  notAbsence : NullCheck.ofText? raw = none
  composite : isComposite raw = true
  refused : Fails (Tree.ofText raw)

theorem Field.filterPredicate_eq_error_iff {scope : Scope} {field : Field} {raw : String}
    {reason : ParseError} :
    field.filterPredicate scope raw = .error reason ↔
      NullCheck.ofText? raw = none ∧ isComposite raw = true ∧ Tree.ofText raw = .error reason := by
  have hread : NullCheck.isAsked raw || !isComposite raw ↔
      ¬(NullCheck.ofText? raw = none ∧ isComposite raw = true) := by
    cases hcheck : NullCheck.ofText? raw <;> simp [NullCheck.isAsked, hcheck]
  rw [filterPredicate, ← and_assoc]
  by_cases hplain : NullCheck.ofText? raw = none ∧ isComposite raw = true
  · rw [if_neg (by rw [hread]; exact not_not_intro hplain), and_iff_right hplain]
    cases Tree.ofText raw with
    | error other => simp [bind, Except.bind]
    | ok tree =>
        -- Whether or not the joins become left joins, there is a predicate.
        simp only [bind, Except.bind]
        split <;> simp [pure, Except.pure]
  · rw [if_pos (hread.mpr hplain)]
    simp [hplain]

theorem Config.isMalformed_iff {config : Config} {raw : String} (scope : Scope) (field : Field) :
    config.IsMalformed raw ↔
      (raw.utf8ByteSize ≤ config.maxFilterLength.toNat && !Text.isBlankText raw) = true ∧
        Fails (field.filterPredicate scope raw) := by
  simp only [Fails, Field.filterPredicate_eq_error_iff, exists_and_left, Bool.and_eq_true,
    decide_eq_true_eq, Bool.not_eq_true']
  constructor
  · rintro ⟨hblank, hfits, habsence, hcomposite, hrefused⟩
    exact ⟨⟨hfits, hblank⟩, habsence, hcomposite, hrefused⟩
  · rintro ⟨⟨hfits, hblank⟩, habsence, hcomposite, hrefused⟩
    exact ⟨hblank, hfits, habsence, hcomposite, hrefused⟩

namespace Schema

/-- A key, not that of the search, stands for a field to filter on and has a malformed value. -/
structure HasMalformed (schema : Schema) (config : Config) (allowed : Option (List String))
    (key : String) (value : FilterValue) : Prop where
  notSearch : key ≠ config.searchKey
  field : ∃ field, schema.MayFilter allowed key field
  malformed : ∃ raw ∈ value.values, config.IsMalformed raw

variable {schema : Schema} {config : Config} {allowed : Option (List String)} {key : String}
  {error : QueryError}

theorem mapError_eq_error_iff {α : Type} {result : Except ParseError α} :
    result.mapError (QueryError.malformedFilter key) = .error error ↔
      ∃ reason, result = .error reason ∧ error = .malformedFilter key reason := by
  cases result <;> simp [Except.mapError, eq_comm]

/-- The values of a field fail as the first malformed one. -/
theorem fieldValues_eq_error_iff {field : Field} {value : FilterValue} :
    schema.fieldValues config key field (usableValues config value) = .error error ↔
      ∃ raw reason, IsFirst config.IsMalformed value.values raw ∧
        Tree.ofText raw = .error reason ∧ error = .malformedFilter key reason := by
  have hmapped : schema.fieldValues config key field (usableValues config value) = .error error ↔
      ((usableValues config value).mapM
        (field.filterPredicate (config.scope schema.tableName))).mapError
          (QueryError.malformedFilter key) = .error error :=
    bind_pure_eq_error_iff
  have hfirst : ∀ raw, IsFirst
      (fun other => Fails (field.filterPredicate (config.scope schema.tableName) other))
        (usableValues config value) raw ↔ IsFirst config.IsMalformed value.values raw := by
    intro raw
    rw [usableValues, isFirst_filter_iff]
    exact isFirst_congr fun other => (Config.isMalformed_iff _ field).symm
  rw [hmapped, mapError_eq_error_iff]
  simp only [mapM_eq_error_iff, hfirst]
  constructor
  · rintro ⟨reason, ⟨raw, hraw, hrefused⟩, rfl⟩
    exact ⟨raw, reason, hraw, (Field.filterPredicate_eq_error_iff.mp hrefused).2.2, rfl⟩
  · rintro ⟨raw, reason, hraw, hrefused, rfl⟩
    refine ⟨reason, ⟨raw, hraw, ?_⟩, rfl⟩
    exact Field.filterPredicate_eq_error_iff.mpr
      ⟨hraw.1.notAbsence, hraw.1.composite, hrefused⟩

/-- A filter key fails only where it stands for a field, and then as the first malformed of its
values; a search never fails. -/
theorem keyPredicate_eq_error_iff {value : FilterValue} :
    schema.keyPredicate config (schema.filterableFields allowed) key value = .error error ↔
      key ≠ config.searchKey ∧ (∃ field, schema.MayFilter allowed key field) ∧
        ∃ raw reason, IsFirst config.IsMalformed value.values raw ∧
          Tree.ofText raw = .error reason ∧ error = .malformedFilter key reason := by
  simp only [keyPredicate]
  by_cases hsearch : key = config.searchKey
  · rw [if_pos hsearch]
    simp [hsearch]
  · rw [if_neg hsearch, and_iff_right hsearch]
    cases hnamed : valueNamed? key (schema.filterableFields allowed) with
    | none =>
        have hnone : ¬ ∃ field, schema.MayFilter allowed key field := by
          rintro ⟨field, hfield⟩
          rw [← valueNamed?_filterableFields_iff, hnamed] at hfield
          cases hfield
        simp [hnone]
    | some field =>
        rw [and_iff_right ⟨field, valueNamed?_filterableFields_iff.mp hnamed⟩]
        exact fieldValues_eq_error_iff

theorem fails_keyPredicate_iff {value : FilterValue} :
    Fails (schema.keyPredicate config (schema.filterableFields allowed) key value) ↔
      schema.HasMalformed config allowed key value := by
  simp only [Fails, keyPredicate_eq_error_iff]
  constructor
  · rintro ⟨_, hsearch, hfield, raw, _, hraw, -⟩
    exact ⟨hsearch, hfield, exists_isFirst_iff.mp ⟨raw, hraw⟩⟩
  · rintro ⟨hsearch, hfield, hmalformed⟩
    obtain ⟨raw, hraw⟩ := exists_isFirst_iff.mpr hmalformed
    obtain ⟨reason, hrefused⟩ := hraw.1.refused
    exact ⟨_, hsearch, hfield, raw, reason, hraw, hrefused, rfl⟩

variable {request : Request}

theorem requestPredicate_eq_error_iff_mapM :
    schema.requestPredicate request config = .error error ↔
      (request.filters.entries.mapM fun (key, value) => schema.keyPredicate config
        (schema.filterableFields request.filterable) key value) = .error error :=
  bind_pure_eq_error_iff

theorem fails_requestPredicate_iff :
    Fails (schema.requestPredicate request config) ↔
      ∃ key value, request.filters.find? key = some value ∧
        schema.HasMalformed config request.filterable key value := by
  simp only [Fails, requestPredicate_eq_error_iff_mapM]
  rw [← Fails, fails_mapM_iff]
  simp only [Prod.exists, fails_keyPredicate_iff, Dict.find?_eq_some_iff]

/-- The filters of a request fail as the first of the keys that do. -/
theorem requestPredicate_eq_error_iff :
    schema.requestPredicate request config = .error error ↔
      ∃ key value,
        request.filters.find? key = some value ∧
        schema.HasMalformed config request.filterable key value ∧
        (∀ other another, request.filters.find? other = some another →
          schema.HasMalformed config request.filterable other another → ¬ other < key) ∧
        schema.keyPredicate config (schema.filterableFields request.filterable) key value =
          .error error := by
  have hasymm : ∀ one two : String × FilterValue, one.1 < two.1 → ¬ two.1 < one.1 :=
    fun _ _ hlt hback => String.lt_irrefl _ (String.lt_trans hlt hback)
  rw [requestPredicate_eq_error_iff_mapM, mapM_eq_error_iff]
  simp only [isFirst_iff_of_pairwise hasymm request.filters.sorted, fails_keyPredicate_iff,
    Prod.forall, Prod.exists, Dict.find?_eq_some_iff, and_assoc]

end Schema

namespace Query

variable {schema : Schema} {request : Request} {config : Config} {dialect : Dialect}

/-- A request makes a query unless one of its keys has a malformed value.  It then fails with the
first of these keys in the order of their bytes, and with the reason why the first malformed
value of the key cannot be read. -/
theorem ofRequest_eq_error_iff :
    ((∃ query, ofRequest schema request config dialect = .ok query) ↔
      ∀ key value, request.filters.find? key = some value →
        ¬ schema.HasMalformed config request.filterable key value) ∧
    ∀ error, ofRequest schema request config dialect = .error error ↔
      ∃ key value raw reason,
        request.filters.find? key = some value ∧
        schema.HasMalformed config request.filterable key value ∧
        (∀ other another, request.filters.find? other = some another →
          schema.HasMalformed config request.filterable other another →
          Text.bytes key ≤ Text.bytes other) ∧
        IsFirst config.IsMalformed value.values raw ∧
        Tree.ofText raw = .error reason ∧ error = .malformedFilter key reason := by
  have hfilters : ∀ error, ofRequest schema request config dialect = .error error ↔
      schema.requestPredicate request config = .error error := by
    intro error
    rw [ofRequest_eq_map]
    cases schema.requestPredicate request config <;> simp [Except.map]
  have horder : ∀ key other : String, ¬ other < key ↔ Text.bytes key ≤ Text.bytes other := by
    intro key other
    rw [← Text.bytes_lt_bytes_iff]
    exact List.not_lt
  constructor
  · have hfails : Fails (ofRequest schema request config dialect) ↔
        ∃ key value, request.filters.find? key = some value ∧
          schema.HasMalformed config request.filterable key value := by
      rw [← Schema.fails_requestPredicate_iff]
      exact exists_congr hfilters
    rw [← not_fails_iff, hfails]
    simp only [not_exists, not_and]
  · intro error
    rw [hfilters, Schema.requestPredicate_eq_error_iff]
    simp only [horder]
    constructor
    · rintro ⟨key, value, hvalue, hmalformed, hleast, herror⟩
      obtain ⟨-, -, raw, reason, hraw, hrefused, rfl⟩ :=
        Schema.keyPredicate_eq_error_iff.mp herror
      exact ⟨key, value, raw, reason, hvalue, hmalformed, hleast, hraw, hrefused, rfl⟩
    · rintro ⟨key, value, raw, reason, hvalue, hmalformed, hleast, hraw, hrefused, rfl⟩
      refine ⟨key, value, hvalue, hmalformed, hleast, ?_⟩
      exact Schema.keyPredicate_eq_error_iff.mpr
        ⟨hmalformed.notSearch, hmalformed.field, raw, reason, hraw, hrefused, rfl⟩

end Query

namespace MalformedFilters

/-- Users with a name and an age. -/
def users : Schema :=
  ((Schema.ofTable "users").withField "name" (Field.ofColumn "name" "string").searched).withField
    "age" (Field.ofColumn "age" "int").searched

/-- A request with malformed values under two keys, and under one that stands for no field. -/
def askUsers : Request :=
  [("name", "(a"), ("age", "1"), ("age", "2&&"), ("age", "||3"), ("Ghost", "b)")].foldl
    (fun request filter => request.addFilter filter.1 filter.2) .empty

example : (Query.ofRequest users askUsers .standard .postgres).map Query.sql =
    .error (.malformedFilter "age" (.missingOperand "&&" 1)) := by decide +kernel

end MalformedFilters

end FilterSql

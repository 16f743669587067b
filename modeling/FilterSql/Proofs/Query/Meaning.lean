/-
What the filters of a request mean for a row.

A key asks for one of its values, and a request for all of its keys; a search term asks for
one of the fields that are searched.  What cannot be used, or makes no condition, is left
out.  The condition of a query has this meaning, whatever the order in which the filters were
added.
-/
import FilterSql.Proofs.Filter.Meaning
import FilterSql.Proofs.Query.AddedFilters
import FilterSql.Proofs.Query.FilterableFields

namespace FilterSql

/-- The truth value of the condition of a statement; without one every row is taken. -/
def Select.truth (engine : Engine) (read : ColumnName → Value) (select : Select) : Truth :=
  (select.condition.map (Expr.truth engine read)).getD .yes

/-- A value of a filter key that counts: some character of it is no blank, and it has no more
bytes than the settings allow. -/
structure Config.IsUsable (config : Config) (raw : String) : Prop where
  notBlank : ∃ c ∈ raw.toList, Text.isBlank c = false
  fits : raw.utf8ByteSize ≤ config.maxFilterLength.toNat

theorem Config.isUsable_iff {config : Config} {raw : String} :
    config.IsUsable raw ↔
      (raw.utf8ByteSize ≤ config.maxFilterLength.toNat && !Text.isBlankText raw) = true := by
  rw [Bool.and_eq_true, decide_eq_true_eq, Bool.not_eq_true', Text.isBlankText, List.all_eq_false]
  simp only [Bool.not_eq_true]
  exact ⟨fun h => ⟨h.fits, h.notBlank⟩, fun h => ⟨h.2, h.1⟩⟩

instance (config : Config) (raw : String) : Decidable (config.IsUsable raw) :=
  decidable_of_iff _ config.isUsable_iff.symm

namespace Schema

theorem usableValues_eq_filter (config : Config) (value : FilterValue) :
    usableValues config value = value.values.filter fun raw => config.IsUsable raw := by
  rw [usableValues]
  congr 1
  funext raw
  rw [Bool.eq_iff_iff, decide_eq_true_eq, Config.isUsable_iff]

section Meaning

variable (engine : Engine) (read : ColumnName → Value)
variable (schema : Schema) (config : Config) (allowed : Option (List String))

/-- What a search term means: one of the fields that are searched has it. -/
def termMeaning? (term : String) : Option Truth :=
  Truth.any? ((searchedFields (schema.filterableFields allowed)).map fun field =>
    field.plainMeaning? engine read (config.scope schema.tableName) term)

/-- What a filter key means with its values: one of those that can be used. -/
inductive KeyMeans (key : String) (value : FilterValue) : Option Truth → Prop
  | search (hsearch : key = config.searchKey) :
      KeyMeans key value (Truth.any? ((value.values.filter fun raw => config.IsUsable raw).map
        (schema.termMeaning? engine read config allowed)))
  | field {field : Field} {meanings : List (Option Truth)} (hsearch : key ≠ config.searchKey)
      (hkey : schema.MayFilter allowed key field)
      (hvalues : List.Forall₂ (field.Means engine read (config.scope schema.tableName))
        (value.values.filter fun raw => config.IsUsable raw) meanings) :
      KeyMeans key value (Truth.any? meanings)
  | passedOver (hsearch : key ≠ config.searchKey)
      (hkey : ∀ field, ¬ schema.MayFilter allowed key field) : KeyMeans key value none

/-- What the filters of a request mean together: all of its keys that mean something. -/
def RequestMeans (request : Request) (truth : Truth) : Prop :=
  ∃ meanings,
    List.Forall₂ (fun entry meaning =>
        schema.KeyMeans engine read config request.filterable entry.1 entry.2 meaning)
      request.filters.entries meanings ∧
    Truth.all meanings.reduceOption = truth

end Meaning

variable {engine : Engine} {read : ColumnName → Value}
variable {schema : Schema} {config : Config} {allowed : Option (List String)}

theorem truth?_searchTerms {terms : List String}
    (hterms : ∀ term ∈ terms, Text.isBlankText term = false) :
    (schema.searchTerms config (schema.filterableFields allowed) terms).truth? engine read =
      Truth.any? (terms.map (schema.termMeaning? engine read config allowed)) := by
  rw [searchTerms, Predicate.truth?_any, List.map_map]
  congr 1
  apply List.map_congr_left
  intro term hterm
  rw [Function.comp_apply, Predicate.truth?, condition_searchPredicate (hterms term hterm),
    ← Predicate.truth?, Predicate.truth?_any, List.map_map]
  rfl

theorem fieldValues_eq_ok {key : String} {field : Field} {values : List String}
    {predicate : Predicate} :
    schema.fieldValues config key field values = .ok predicate ↔
      ∃ predicates, List.Forall₂
          (fun raw part => field.filterPredicate (config.scope schema.tableName) raw = .ok part)
          values predicates ∧ .any predicates = predicate := by
  have hmapped : ∀ predicates,
      (values.mapM (field.filterPredicate (config.scope schema.tableName))).mapError
          (QueryError.malformedFilter key) = .ok predicates ↔
        values.mapM (field.filterPredicate (config.scope schema.tableName)) = .ok predicates := by
    intro predicates
    cases values.mapM (field.filterPredicate (config.scope schema.tableName)) <;>
      simp [Except.mapError]
  simp [fieldValues, bind_eq_ok, hmapped, mapM_eq_ok, pure, Except.pure]

/-- A field's values mean what their predicate says, and there is one when they can be read. -/
theorem means_iff_fieldValues {key : String} {field : Field} {values : List String}
    {meaning : Option Truth} :
    (∃ meanings, List.Forall₂ (field.Means engine read (config.scope schema.tableName)) values
        meanings ∧ Truth.any? meanings = meaning) ↔
      ∃ predicate, schema.fieldValues config key field values = .ok predicate ∧
        predicate.truth? engine read = meaning := by
  have hmeans : field.Means engine read (config.scope schema.tableName) =
      fun raw meaning => ∃ part,
        field.filterPredicate (config.scope schema.tableName) raw = .ok part ∧
          part.truth? engine read = meaning := by
    funext raw meaning
    exact propext Field.means_iff_filterPredicate
  simp only [hmeans, forall₂_exists_iff, fieldValues_eq_ok]
  constructor
  · rintro ⟨_, ⟨predicates, hpredicates, rfl⟩, rfl⟩
    exact ⟨_, ⟨predicates, hpredicates, rfl⟩, Predicate.truth?_any predicates⟩
  · rintro ⟨_, ⟨predicates, hpredicates, rfl⟩, rfl⟩
    exact ⟨_, ⟨predicates, hpredicates, rfl⟩, (Predicate.truth?_any predicates).symm⟩

/-- A key means what its predicate says, and there is one when its values can be read. -/
theorem keyMeans_iff_keyPredicate {key : String} {value : FilterValue} {meaning : Option Truth} :
    schema.KeyMeans engine read config allowed key value meaning ↔
      ∃ predicate,
        schema.keyPredicate config (schema.filterableFields allowed) key value = .ok predicate ∧
          predicate.truth? engine read = meaning := by
  have hterms : ∀ term ∈ value.values.filter fun raw => config.IsUsable raw,
      Text.isBlankText term = false := by
    intro term hterm
    obtain ⟨c, hc, hblank⟩ := (of_decide_eq_true (List.mem_filter.mp hterm).2).notBlank
    exact List.all_eq_false.mpr ⟨c, hc, by rw [hblank]; exact Bool.false_ne_true⟩
  have hsearched := @truth?_searchTerms engine read schema config allowed _ hterms
  simp only [keyPredicate, usableValues_eq_filter]
  constructor
  · intro hmeans
    cases hmeans with
    | search hsearch =>
        exact ⟨_, if_pos hsearch, hsearched⟩
    | field hsearch hkey hvalues =>
        have hnamed := valueNamed?_filterableFields_iff.mpr hkey
        simp only [if_neg hsearch, hnamed]
        exact means_iff_fieldValues.mp ⟨_, hvalues, rfl⟩
    | passedOver hsearch hkey =>
        have hpassed := keyPredicate_of_not_mayFilter hsearch hkey value
        simp only [keyPredicate, usableValues_eq_filter] at hpassed
        exact ⟨_, hpassed, rfl⟩
  · rintro ⟨predicate, hpredicate, rfl⟩
    by_cases hsearch : key = config.searchKey
    · simp only [if_pos hsearch, Except.ok.injEq] at hpredicate
      rw [← hpredicate, hsearched]
      exact .search hsearch
    · simp only [if_neg hsearch] at hpredicate
      split at hpredicate
      next field hnamed =>
        obtain ⟨meanings, hvalues, hmeaning⟩ := means_iff_fieldValues.mpr ⟨_, hpredicate, rfl⟩
        rw [← hmeaning]
        exact .field hsearch (valueNamed?_filterableFields_iff.mp hnamed) hvalues
      next hnone =>
        cases hpredicate
        refine .passedOver hsearch fun field hfield => ?_
        rw [valueNamed?_filterableFields_iff.mpr hfield] at hnone
        cases hnone

theorem requestPredicate_eq_ok {request : Request} {predicate : Predicate} :
    schema.requestPredicate request config = .ok predicate ↔
      ∃ predicates, List.Forall₂
          (fun entry part => schema.keyPredicate config
            (schema.filterableFields request.filterable) entry.1 entry.2 = .ok part)
          request.filters.entries predicates ∧ .all predicates = predicate := by
  simp [requestPredicate, bind_eq_ok, mapM_eq_ok, pure, Except.pure]

/-- The filters of a request mean what their predicate says, and there is one when they can be
read. -/
theorem requestMeans_iff_requestPredicate {request : Request} {truth : Truth} :
    schema.RequestMeans engine read config request truth ↔
      ∃ predicate, schema.requestPredicate request config = .ok predicate ∧
        (predicate.truth? engine read).getD .yes = truth := by
  simp only [RequestMeans, keyMeans_iff_keyPredicate, forall₂_exists_iff, requestPredicate_eq_ok]
  constructor
  · rintro ⟨_, ⟨predicates, hpredicates, rfl⟩, rfl⟩
    exact ⟨_, ⟨predicates, hpredicates, rfl⟩, Predicate.truth?_all predicates⟩
  · rintro ⟨_, ⟨predicates, hpredicates, rfl⟩, rfl⟩
    exact ⟨_, ⟨predicates, hpredicates, rfl⟩, (Predicate.truth?_all predicates).symm⟩

/-- The order of the values of a key makes no difference to what it means. -/
theorem KeyMeans.perm {key : String} {value other : FilterValue} {meaning : Option Truth}
    (hmeans : schema.KeyMeans engine read config allowed key value meaning)
    (hperm : value.values.Perm other.values) :
    schema.KeyMeans engine read config allowed key other meaning := by
  have husable := hperm.filter fun raw => config.IsUsable raw
  cases hmeans with
  | search hsearch =>
      rw [Truth.any?_perm (husable.map _)]
      exact .search hsearch
  | field hsearch hkey hvalues =>
      obtain ⟨meanings, hmeanings, hsame⟩ := List.perm_comp_forall₂ husable.symm hvalues
      rw [← Truth.any?_perm hsame]
      exact .field hsearch hkey hmeanings
  | passedOver hsearch hkey => exact .passedOver hsearch hkey

theorem RequestMeans.of_sameFilters {request other : Request} {truth : Truth}
    (hmeans : schema.RequestMeans engine read config request truth)
    (hsame : request.SameFilters other) :
    schema.RequestMeans engine read config other truth := by
  obtain ⟨meanings, hmeanings, htruth⟩ := hmeans
  have hentries := forall₂_of_valueNamed? request.filters.sorted other.filters.sorted hsame.values
  refine ⟨meanings, forall₂_of_common hmeanings hentries ?_, htruth⟩
  rintro ⟨key, value⟩ meaning ⟨_, another⟩ hmeaning ⟨rfl, hperm⟩
  rw [← hsame.filterable]
  exact hmeaning.perm hperm

end Schema

namespace Query

variable {engine : Engine} {read : ColumnName → Value}
variable {schema : Schema} {request : Request} {config : Config} {dialect : Dialect}

/-- The condition of a query means what the filters of its request do, and there is a query when
they can be read. -/
theorem requestMeans_iff_ofRequest {truth : Truth} (dialect : Dialect) :
    schema.RequestMeans engine read config request truth ↔
      ∃ query, ofRequest schema request config dialect = .ok query ∧
        query.select.truth engine read = truth := by
  rw [Schema.requestMeans_iff_requestPredicate, ofRequest_eq_map]
  cases schema.requestPredicate request config with
  | error reason => simp [Except.map]
  | ok predicate => simp [Except.map, Select.truth, Schema.statement, Predicate.truth?]

/-- Without relations among the fields that may be filtered on there is nothing to join. -/
theorem joins_eq_nil_of_ofRequest {query : Query}
    (hquery : ofRequest schema request config dialect = .ok query)
    (hplain : ∀ key field, schema.MayFilter request.filterable key field →
      field.relation = none) : query.select.joins = [] := by
  rw [List.eq_nil_iff_forall_not_mem]
  intro clause hclause
  obtain ⟨field, hfield, join, hjoin, -⟩ := exists_makes_of_mem_joins hquery hclause
  obtain ⟨key, hkey⟩ := Schema.mem_allowedFields_iff.mp hfield
  obtain ⟨relation, _, _, hrelation, -⟩ := Field.searchJoin?_eq_some.mp hjoin
  rw [hplain key field hkey] at hrelation
  cases hrelation

/-- The condition of a query is true, false or unknown of a row just as the filters of its
request mean it: all of the keys that mean something, one of the values of each.  A schema
without relations asks this of the rows of its own table, and the order in which filters are
added makes no difference. -/
theorem truth_of_ofRequest (engine : Engine) (read : ColumnName → Value) {query : Query}
    (hquery : ofRequest schema request config dialect = .ok query) :
    (∀ truth, schema.RequestMeans engine read config request truth ↔
      query.select.truth engine read = truth) ∧
    ((∀ key field, schema.MayFilter request.filterable key field → field.relation = none) →
      query.select.joins = []) ∧
    ∀ (start : Request) (additions others : List (String × String)),
      request = start.addFilters additions → additions.Perm others →
      ∃ other, ofRequest schema (start.addFilters others) config dialect = .ok other ∧
        other.select.truth engine read = query.select.truth engine read := by
  have hmeans : ∀ truth, schema.RequestMeans engine read config request truth ↔
      query.select.truth engine read = truth := by
    intro truth
    simp [requestMeans_iff_ofRequest dialect, hquery]
  refine ⟨hmeans, joins_eq_nil_of_ofRequest hquery, ?_⟩
  rintro start additions others rfl hperm
  exact (requestMeans_iff_ofRequest dialect).mp
    (((hmeans _).mpr rfl).of_sameFilters (Request.sameFilters_of_perm hperm start))

end Query

namespace Meaning

/-- Users with a name and an age that are searched, and a city that is not. -/
def users : Schema :=
  (((Schema.ofTable "users").withField "name" (Field.ofColumn "name" "string").searched).withField
    "age" (Field.ofColumn "age" "int").searched).withField "city" (Field.ofColumn "city" "string")

/-- An expression for the name, an age that is no number and one that is, and a word to find. -/
def additions : List (String × String) :=
  [("name", "(an||bo)&&ob"), ("age", "old"), ("age", "7"), ("search", "bo")]

/-- A user of a name who is seven years old. -/
def user (name : String) : ColumnName → Value
  | ⟨_, "name"⟩ => .string name
  | ⟨_, "age"⟩ => .int 7
  | _ => .null

theorem filterableFields_users : users.filterableFields none =
    [("age", (Field.ofColumn "age" "int").searched),
      ("name", (Field.ofColumn "name" "string").searched)] := rfl

theorem mayFilter_name : users.MayFilter none "name" (Field.ofColumn "name" "string").searched := by
  rw [← Schema.mem_filterableFields_iff, filterableFields_users]
  simp

theorem mayFilter_age : users.MayFilter none "age" (Field.ofColumn "age" "int").searched := by
  rw [← Schema.mem_filterableFields_iff, filterableFields_users]
  simp

theorem relation_eq_none {key : String} {field : Field} (hfield : users.MayFilter none key field) :
    field.relation = none := by
  rw [← Schema.mem_filterableFields_iff, filterableFields_users] at hfield
  simp only [List.mem_cons, Prod.mk.injEq, List.not_mem_nil, or_false] at hfield
  rcases hfield with ⟨-, rfl⟩ | ⟨-, rfl⟩ <;> rfl

/-- Two keys and a search count, each with one value; no number is passed over. -/
theorem requestMeans_user (name : String) (named aged found : Truth)
    (hname : Tree.meaning? ((Field.ofColumn "name" "string").searched.plainMeaning? .plain
      (user name) (Config.standard.scope "users"))
      (.and (.or (.leaf "an") (.leaf "bo")) (.leaf "ob")) = some named)
    (hold : (Field.ofColumn "age" "int").searched.plainMeaning? .plain (user name)
      (Config.standard.scope "users") "old" = none)
    (hseven : (Field.ofColumn "age" "int").searched.plainMeaning? .plain (user name)
      (Config.standard.scope "users") "7" = some aged)
    (hsearch : users.termMeaning? .plain (user name) .standard none "bo" = some found) :
    users.RequestMeans .plain (user name) .standard (Request.empty.addFilters additions)
      (Truth.all [aged, named, found]) := by
  have htree : Tree.ReadFrom "(an||bo)&&ob"
      (.and (.or (.leaf "an") (.leaf "bo")) (.leaf "ob")) := by
    rw [Tree.readFrom_iff_ofText (by decide)]
    decide +kernel
  have hages : users.KeyMeans .plain (user name) .standard none "age" (.many ["old", "7"])
      (Truth.any? [none, some aged]) :=
    .field (by decide) mayFilter_age
      (.cons ⟨.leaf "old", .plain (by decide), hold⟩
        (.cons ⟨.leaf "7", .plain (by decide), hseven⟩ .nil))
  have hnames : users.KeyMeans .plain (user name) .standard none "name" (.single "(an||bo)&&ob")
      (Truth.any? [some named]) :=
    .field (by decide) mayFilter_name (.cons ⟨_, htree, hname⟩ .nil)
  have hfound : users.KeyMeans .plain (user name) .standard none "search" (.single "bo")
      (Truth.any? [some found]) := by
    rw [← hsearch]
    exact .search rfl
  exact ⟨_, .cons hages (.cons hnames (.cons hfound .nil)),
    by simp [Truth.any?, Truth.any, List.reduceOption]⟩

/-- The filters are true of a user called bob, and false of one called ann. -/
theorem truth_of_users :
    ∃ query,
      Query.ofRequest users (Request.empty.addFilters additions) .standard .postgres =
        .ok query ∧
      query.select.joins = [] ∧ query.select.truth .plain (user "bob") = .yes ∧
      query.select.truth .plain (user "ann") = .no ∧
      ∃ other,
        Query.ofRequest users (Request.empty.addFilters additions.reverse) .standard .postgres =
          .ok other ∧
        other.select.truth .plain (user "bob") = query.select.truth .plain (user "bob") := by
  have hbob : users.RequestMeans .plain (user "bob") .standard
      (Request.empty.addFilters additions) .yes :=
    requestMeans_user "bob" .yes .yes .yes (by decide) (by decide) (by decide) (by decide)
  have hann : users.RequestMeans .plain (user "ann") .standard
      (Request.empty.addFilters additions) .no :=
    requestMeans_user "ann" .no .yes .no (by decide) (by decide) (by decide) (by decide)
  obtain ⟨query, hquery, -⟩ := (Query.requestMeans_iff_ofRequest .postgres).mp hbob
  obtain ⟨hmeans, hjoins, horder⟩ := Query.truth_of_ofRequest .plain (user "bob") hquery
  obtain ⟨hother, -, -⟩ := Query.truth_of_ofRequest .plain (user "ann") hquery
  exact ⟨query, hquery, hjoins fun key field => relation_eq_none, (hmeans .yes).mp hbob,
    (hother .no).mp hann, horder .empty additions _ rfl (List.reverse_perm additions).symm⟩

end Meaning

end FilterSql

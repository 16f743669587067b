/-
Filters collected from arguments.

The filters of a request are found key by key: under a key stand the values that were there and
after them those of its own arguments, in their order.  So only the order of the arguments of one
key counts, and two lists of arguments make one request exactly when each key has the same values
in both.
-/
import FilterSql.CommandLine.Arguments
import FilterSql.Proofs.Query.AddedFilters
import FilterSql.Query.Basic

namespace FilterSql

/-- The values of a key among arguments, in their order. -/
def valuesOf (key : String) (arguments : List (String × String)) : List String :=
  (arguments.filter fun argument => argument.1 == key).map Prod.snd

theorem valuesOf_cons_self (key value : String) (arguments : List (String × String)) :
    valuesOf key ((key, value) :: arguments) = value :: valuesOf key arguments := by
  simp [valuesOf]

theorem valuesOf_cons_of_ne {key other : String} (hne : other ≠ key) (value : String)
    (arguments : List (String × String)) :
    valuesOf key ((other, value) :: arguments) = valuesOf key arguments := by
  simp [valuesOf, hne]

theorem mem_valuesOf_iff {key value : String} {arguments : List (String × String)} :
    value ∈ valuesOf key arguments ↔ (key, value) ∈ arguments := by
  simp [valuesOf]

theorem count_valuesOf (key value : String) (arguments : List (String × String)) :
    (valuesOf key arguments).count value = arguments.count (key, value) := by
  induction arguments with
  | nil => rfl
  | cons argument arguments ih =>
      obtain ⟨name, other⟩ := argument
      by_cases hname : name = key
      · subst hname
        simp [valuesOf_cons_self, List.count_cons, ih]
      · simp [valuesOf_cons_of_ne hname, ih, hname]

/-- Arguments in another order that leaves the values of each key in theirs. -/
structure KeepsOrders (others arguments : List (String × String)) : Prop where
  perm : others.Perm arguments
  values : ∀ key, valuesOf key others = valuesOf key arguments

/-- The values of every key tell the arguments up to such an order. -/
theorem keepsOrders_iff {others arguments : List (String × String)} :
    KeepsOrders others arguments ↔ ∀ key, valuesOf key others = valuesOf key arguments := by
  constructor
  · exact KeepsOrders.values
  · intro hvalues
    refine ⟨List.perm_iff_count.mpr ?_, hvalues⟩
    intro argument
    calc others.count argument
      _ = (valuesOf argument.1 others).count argument.2 := (count_valuesOf _ _ _).symm
      _ = (valuesOf argument.1 arguments).count argument.2 := by rw [hvalues]
      _ = arguments.count argument := count_valuesOf _ _ _

/-- Neighbours of two keys may change places. -/
theorem keepsOrders_swap {first second : String × String} (hne : first.1 ≠ second.1)
    (rest : List (String × String)) :
    KeepsOrders (second :: first :: rest) (first :: second :: rest) := by
  refine ⟨.swap first second rest, fun key => ?_⟩
  by_cases hfirst : first.1 = key
  · have hsecond : second.1 ≠ key := fun hsecond => hne (hfirst.trans hsecond.symm)
    simp [valuesOf, hfirst, hsecond]
  · simp [valuesOf, List.filter_cons, hfirst]

namespace FilterValue

/-- The values with more, one after another. -/
def pushAll (start : FilterValue) (values : List String) : FilterValue :=
  values.foldl (fun before value => before.push value) start

theorem values_pushAll (start : FilterValue) (values : List String) :
    (start.pushAll values).values = start.values ++ values := by
  induction values generalizing start with
  | nil => exact (List.append_nil _).symm
  | cons value values ih =>
      rw [pushAll, List.foldl_cons]
      calc ((start.push value).pushAll values).values
        _ = (start.push value).values ++ values := ih _
        _ = start.values ++ value :: values := by
          rw [values_push, List.append_assoc, List.singleton_append]

end FilterValue

/-- Dictionaries that have the same values are equal. -/
theorem Dict.eq_of_find? {α : Type} {left right : Dict α}
    (hfind : ∀ name, left.find? name = right.find? name) : left = right := by
  have hentries := forall₂_of_valueNamed? (R := Eq) left.sorted right.sorted fun name => by
    have hname : valueNamed? name left.entries = valueNamed? name right.entries := hfind name
    rw [hname]
    cases valueNamed? name right.entries with
    | none => exact .none
    | some value => exact .some rfl
  apply Dict.ext
  rw [← List.forall₂_eq_eq_eq]
  exact hentries.imp fun first second hpair => Prod.ext hpair.1 hpair.2

namespace Request

/-- The values of a key with more, one after another; without any they stay as they are. -/
def pushedAll (before : Option FilterValue) (values : List String) : Option FilterValue :=
  values.foldl (fun before value => some (pushed value before)) before

theorem pushedAll_some (start : FilterValue) (values : List String) :
    pushedAll (some start) values = some (start.pushAll values) := by
  induction values generalizing start with
  | nil => rfl
  | cons value values ih => exact ih (start.push value)

theorem values_pushedAll (before : Option FilterValue) (values : List String) :
    (pushedAll before values).elim [] FilterValue.values =
      before.elim [] FilterValue.values ++ values := by
  cases before with
  | some start =>
      rw [pushedAll_some]
      exact start.values_pushAll values
  | none =>
      cases values with
      | nil => rfl
      | cons value values =>
          show (pushedAll (some (.single value)) values).elim [] FilterValue.values = _
          rw [pushedAll_some]
          exact FilterValue.values_pushAll (.single value) values

theorem isSome_pushedAll_iff {before : Option FilterValue} {values : List String} :
    (pushedAll before values).isSome = true ↔ before.isSome = true ∨ values ≠ [] := by
  cases before with
  | some start => simp [pushedAll_some]
  | none =>
      cases values with
      | nil => simp [pushedAll]
      | cons value values =>
          have hsome : pushedAll none (value :: values) = _ := pushedAll_some (.single value) values
          simp [hsome]

variable (request : Request)

/-- A key gets the values of its own arguments and of no others. -/
theorem find?_addFilters (additions : List (String × String)) (key : String) :
    (request.addFilters additions).filters.find? key =
      pushedAll (request.filters.find? key) (valuesOf key additions) := by
  induction additions generalizing request with
  | nil => rfl
  | cons addition additions ih =>
      obtain ⟨name, value⟩ := addition
      have hstep : (request.addFilters ((name, value) :: additions)).filters.find? key =
          pushedAll ((request.addFilter name value).filters.find? key) (valuesOf key additions) :=
        ih (request.addFilter name value)
      rw [hstep, find?_addFilter]
      split
      next hname =>
        subst hname
        rw [valuesOf_cons_self]
        rfl
      next hname => rw [valuesOf_cons_of_ne (Ne.symm hname)]

/-- Nothing but the filters of a request changes. -/
theorem addFilters_eq (additions : List (String × String)) :
    request.addFilters additions =
      { request with filters := (request.addFilters additions).filters } := by
  induction additions generalizing request with
  | nil => rfl
  | cons addition additions ih => exact ih (request.addFilter addition.1 addition.2)

/-- The filters are the same exactly when each key gets the same values in the same order. -/
theorem filters_addFilters_eq_iff {additions others : List (String × String)} :
    (request.addFilters others).filters = (request.addFilters additions).filters ↔
      KeepsOrders others additions := by
  rw [keepsOrders_iff]
  constructor
  · intro hsame key
    have hvalues := values_pushedAll (request.filters.find? key) (valuesOf key others)
    rw [← find?_addFilters, hsame, find?_addFilters, values_pushedAll] at hvalues
    exact (List.append_cancel_left hvalues).symm
  · intro hvalues
    apply Dict.eq_of_find?
    intro key
    rw [find?_addFilters, find?_addFilters, hvalues]

theorem addFilters_eq_iff {additions others : List (String × String)} :
    request.addFilters others = request.addFilters additions ↔ KeepsOrders others additions := by
  rw [← filters_addFilters_eq_iff request]
  constructor
  · exact congrArg Request.filters
  · intro hfilters
    rw [addFilters_eq, hfilters, ← addFilters_eq]

/-- A request collects arguments: each key of them gets its own values after those it had. -/
structure Collects (after : Request) (arguments : List (String × String)) : Prop where
  keys : ∀ key, (after.filters.find? key).isSome = true ↔
    (request.filters.find? key).isSome = true ∨ ∃ value, (key, value) ∈ arguments
  values : ∀ key value, after.filters.find? key = some value →
    value.values = (request.filters.find? key).elim [] FilterValue.values ++ valuesOf key arguments

theorem collects_addFilters (additions : List (String × String)) :
    request.Collects (request.addFilters additions) additions := by
  constructor
  · intro key
    simp only [find?_addFilters, isSome_pushedAll_iff, ne_eq, List.eq_nil_iff_forall_not_mem,
      mem_valuesOf_iff, not_forall, not_not]
  · intro key value hvalue
    have hvalues := values_pushedAll (request.filters.find? key) (valuesOf key additions)
    rw [← find?_addFilters, hvalue] at hvalues
    exact hvalues

end Request

namespace CommandLine.Invocation

/-- The filters of the arguments are added to no filters; nothing else in the request comes from
them. -/
theorem request_eq (invocation : Invocation) :
    invocation.request =
      { { invocation with filters := [] }.request with
        filters := (Request.empty.addFilters invocation.filters).filters } := by
  let filtered := Request.empty.addFilters invocation.filters
  have hpage : filtered.pagination = none := congrArg _ (Request.empty.addFilters_eq _)
  simp only [request]
  split
  · rfl
  · exact congrArg (Request.mk filtered.filters invocation.sort · invocation.fields
      invocation.filterable) hpage

theorem request_eq_iff {invocation : Invocation} {others : List (String × String)} :
    { invocation with filters := others }.request = invocation.request ↔
      KeepsOrders others invocation.filters := by
  rw [← Request.empty.filters_addFilters_eq_iff]
  constructor
  · intro hsame
    have hfilters := congrArg Request.filters hsame
    rwa [request_eq, request_eq invocation] at hfilters
  · intro hfilters
    rw [request_eq, hfilters, request_eq invocation]

/-- Filter arguments are collected without loss.  The request has the keys of the arguments, each
with its values in their order, and another order of the arguments makes the same request exactly
when it keeps those of each key, and then the same query.  Filters that are added to a request
stand in the same way after those it has, and values that are pushed after those of the start. -/
theorem collects_request (invocation : Invocation) :
    Request.empty.Collects invocation.request invocation.filters ∧
    (∀ others, { invocation with filters := others }.request = invocation.request ↔
      KeepsOrders others invocation.filters) ∧
    (∀ others, KeepsOrders others invocation.filters → ∀ schema config dialect,
      Query.ofRequest schema { invocation with filters := others }.request config dialect =
        Query.ofRequest schema invocation.request config dialect) ∧
    (∀ (request : Request) additions,
      request.Collects (request.addFilters additions) additions ∧
      ∀ others, request.addFilters others = request.addFilters additions ↔
        KeepsOrders others additions) ∧
    ∀ (start : FilterValue) values, (start.pushAll values).values = start.values ++ values := by
  refine ⟨?_, fun others => request_eq_iff, ?_, ?_, FilterValue.values_pushAll⟩
  · have hcollects := Request.empty.collects_addFilters invocation.filters
    rw [request_eq]
    exact ⟨hcollects.keys, hcollects.values⟩
  · intro others hkeeps schema config dialect
    rw [request_eq_iff.mpr hkeeps]
  · intro request additions
    exact ⟨request.collects_addFilters additions, fun others => request.addFilters_eq_iff⟩

end CommandLine.Invocation

namespace CollectedFilters

/-- A call with two values of a status and an age between them. -/
def call : CommandLine.Invocation where
  action := .compile false
  verbose := false
  schema := "users.json"
  config := none
  dialect := .postgres
  filters := [("status", "open"), ("age", ">=18"), ("status", "draft")]
  sort := []
  page := none
  limit := none
  fields := none
  filterable := none

/-- The age may come first, but neither status before the other. -/
theorem collects_call :
    let ageFirst := [("age", ">=18"), ("status", "open"), ("status", "draft")]
    let draftFirst := [("status", "draft"), ("age", ">=18"), ("status", "open")]
    KeepsOrders ageFirst call.filters ∧
    { call with filters := ageFirst }.request = call.request ∧
    Query.ofRequest (.ofTable "users") { call with filters := ageFirst }.request .standard .mySql =
      Query.ofRequest (.ofTable "users") call.request .standard .mySql ∧
    { call with filters := draftFirst }.request ≠ call.request ∧
    call.request.filters.find? "status" = some (.many ["open", "draft"]) := by
  obtain ⟨-, hsame, hquery, -, -⟩ := call.collects_request
  have hage : KeepsOrders [("age", ">=18"), ("status", "open"), ("status", "draft")]
      call.filters := keepsOrders_swap (by decide) [("status", "draft")]
  refine ⟨hage, (hsame _).mpr hage, hquery _ hage _ _ _, ?_, rfl⟩
  intro hdraft
  exact absurd (((hsame _).mp hdraft).values "status") (by decide)

end CollectedFilters

end FilterSql

/-
Requests without one of their keys.

Taking an entry out of a dictionary changes no other.  A key that asks for nothing can be taken
out of a request, wherever its name puts it among the others, and the filters ask for the same
together.
-/
import FilterSql.Proofs.Traversal
import FilterSql.Query.Basic

namespace FilterSql

section Entries

variable {α : Type u} {name : String}

theorem filter_insertEntry (value : α) (entries : List (String × α)) :
    (insertEntry name value entries).filter (fun entry => entry.1 ≠ name) =
      entries.filter fun entry => entry.1 ≠ name := by
  induction entries with
  | nil => simp [insertEntry]
  | cons head tail ih =>
      rw [insertEntry]
      split
      · simp
      · split
        next hsame => simp [← hsame]
        next => rw [List.filter_cons, List.filter_cons, ih]

end Entries

namespace Dict

variable {α : Type u}

/-- The dictionary without the entry of a name. -/
def erase (dict : Dict α) (name : String) : Dict α :=
  ⟨dict.entries.filter fun entry => entry.1 ≠ name, dict.sorted.filter _⟩

/-- Nothing stands under the name, and under all other names what stood there before. -/
theorem find?_erase (dict : Dict α) (name other : String) :
    (dict.erase name).find? other = if other = name then none else dict.find? other := by
  apply Option.ext
  intro value
  rw [find?_eq_some_iff, erase, List.mem_filter, ← find?_eq_some_iff]
  by_cases hother : other = name
  · simp [hother]
  · simp [hother]

theorem erase_insert (dict : Dict α) (name : String) (value : α) :
    (dict.insert name value).erase name = dict.erase name :=
  ext (filter_insertEntry value dict.entries)

end Dict

/-- The request without a filter key. -/
def Request.withoutFilter (request : Request) (key : String) : Request :=
  { request with filters := request.filters.erase key }

/-- Items that ask for nothing make no difference among others. -/
theorem Predicate.foldl_and_mapM_filter {ε α : Type} {ask : α → Except ε Predicate}
    {keep : α → Bool} {items : List α}
    (hask : ∀ item ∈ items, keep item = false → ask item = .ok none) (start : Predicate) :
    ((items.filter keep).mapM ask).map (List.foldl and start) =
      (items.mapM ask).map (List.foldl and start) := by
  induction items generalizing start with
  | nil => rfl
  | cons item items ih =>
      rw [List.forall_mem_cons] at hask
      rw [map_foldl_mapM_cons item, List.filter_cons]
      by_cases hkeep : keep item = true
      · rw [if_pos hkeep, map_foldl_mapM_cons]
        cases ask item with
        | error reason => rfl
        | ok predicate => exact ih hask.2 (start.and predicate)
      · rw [Bool.not_eq_true] at hkeep
        rw [hask.1 hkeep, if_neg (by simp [hkeep]), ih hask.2]
        simp [bind, Except.bind]

/-- A key that asks for nothing makes no difference to what the filters ask for together. -/
theorem Schema.requestPredicate_withoutFilter {schema : Schema} {request : Request}
    {config : Config} {key : String}
    (hkey : ∀ value ∈ request.filters.find? key,
      schema.keyPredicate config (schema.filterableFields request.filterable) key value =
        .ok .none) :
    schema.requestPredicate (request.withoutFilter key) config =
      schema.requestPredicate request config := by
  apply Predicate.foldl_and_mapM_filter
  rintro ⟨name, value⟩ hentry hname
  obtain rfl : name = key := by simpa using hname
  exact hkey value (Dict.find?_eq_some_iff.mpr hentry)

end FilterSql

/-
Filters in the order they were added.

The values of a key stand in the order in which they were added, and the keys in the order of
their names.  The same filters added in another order are the same keys, each with its values
in some order.
-/
import Mathlib.Data.List.Perm.Basic
import FilterSql.Query.Request

namespace FilterSql

section Entries

variable {α β : Type} {R : α → β → Prop}

theorem valueNamed?_cons_self (entry : String × α) (entries : List (String × α)) :
    valueNamed? entry.1 (entry :: entries) = some entry.2 := by
  simp [valueNamed?]

theorem valueNamed?_cons_of_ne {name : String} {entry : String × α} (hne : entry.1 ≠ name)
    (entries : List (String × α)) :
    valueNamed? name (entry :: entries) = valueNamed? name entries := by
  simp [valueNamed?, hne]

/-- No name comes before the first one. -/
theorem le_of_valueNamed?_isSome {name : String} {entry : String × α}
    {entries : List (String × α)} (hsorted : SortedByName (entry :: entries))
    (hsome : (valueNamed? name (entry :: entries)).isSome) : entry.1 ≤ name := by
  obtain ⟨value, hvalue⟩ := Option.isSome_iff_exists.mp hsome
  rcases List.mem_cons.mp (mem_of_valueNamed? hvalue) with hsame | hmem
  · subst hsame
    exact String.le_refl name
  · have hlt : entry.1 < name := (List.pairwise_cons.mp hsorted).1 _ hmem
    exact String.not_lt.mp fun hback => String.lt_irrefl name (String.lt_trans hback hlt)

/-- The first name does not come again. -/
theorem valueNamed?_tail_self {entry : String × α} {entries : List (String × α)}
    (hsorted : SortedByName (entry :: entries)) : valueNamed? entry.1 entries = none := by
  rw [Option.eq_none_iff_forall_ne_some]
  intro value hvalue
  have hlt : entry.1 < entry.1 :=
    (List.pairwise_cons.mp hsorted).1 (entry.1, value) (mem_of_valueNamed? hvalue)
  exact String.lt_irrefl entry.1 hlt

theorem isSome_eq_of_rel {first : Option α} {second : Option β}
    (hrel : Option.Rel R first second) : first.isSome = second.isSome := by
  cases hrel <;> rfl

/-- Sorted entries that have related values under every name are related one by one. -/
theorem forall₂_of_valueNamed? {first : List (String × α)} {second : List (String × β)}
    (hfirst : SortedByName first) (hsecond : SortedByName second)
    (hnamed : ∀ name, Option.Rel R (valueNamed? name first) (valueNamed? name second)) :
    List.Forall₂ (fun left right => left.1 = right.1 ∧ R left.2 right.2) first second := by
  have hsome := fun name => isSome_eq_of_rel (hnamed name)
  induction first generalizing second with
  | nil =>
      cases second with
      | nil => exact .nil
      | cons right second =>
          have hright := hsome right.1
          rw [valueNamed?_cons_self] at hright
          cases hright
  | cons left first ih =>
      cases second with
      | nil =>
          have hleft := hsome left.1
          rw [valueNamed?_cons_self] at hleft
          cases hleft
      | cons right second =>
          have hle : left.1 ≤ right.1 := by
            apply le_of_valueNamed?_isSome hfirst
            rw [hsome, valueNamed?_cons_self, Option.isSome_some]
          have hge : right.1 ≤ left.1 := by
            apply le_of_valueNamed?_isSome hsecond
            rw [← hsome, valueNamed?_cons_self, Option.isSome_some]
          have hsame : left.1 = right.1 := String.le_antisymm hle hge
          have hheads : R left.2 right.2 := by
            have hboth := hnamed left.1
            rw [valueNamed?_cons_self, hsame, valueNamed?_cons_self] at hboth
            cases hboth with
            | some hvalue => exact hvalue
          have htails : ∀ name,
              Option.Rel R (valueNamed? name first) (valueNamed? name second) := by
            intro name
            by_cases hname : left.1 = name
            · rw [← hname, valueNamed?_tail_self hfirst, hsame, valueNamed?_tail_self hsecond]
              exact .none
            · have hboth := hnamed name
              rwa [valueNamed?_cons_of_ne hname, valueNamed?_cons_of_ne (hsame ▸ hname)] at hboth
          exact .cons ⟨hsame, hheads⟩
            (ih hfirst.of_cons hsecond.of_cons htails fun name => isSome_eq_of_rel (htails name))

end Entries

namespace Request

/-- The request with more filter values, one after another. -/
def addFilters (request : Request) (additions : List (String × String)) : Request :=
  additions.foldl (fun request addition => request.addFilter addition.1 addition.2) request

/-- The same keys stand in two requests, each with its values in some order, and the same fields
may be filtered on. -/
structure SameFilters (first second : Request) : Prop where
  values : ∀ key, Option.Rel (fun left right : FilterValue => left.values.Perm right.values)
    (first.filters.find? key) (second.filters.find? key)
  filterable : first.filterable = second.filterable

theorem rel_values_refl (value : Option FilterValue) :
    Option.Rel (fun left right : FilterValue => left.values.Perm right.values) value value := by
  cases value with
  | none => exact .none
  | some value => exact .some (.refl _)

namespace SameFilters

theorem refl (request : Request) : request.SameFilters request :=
  ⟨fun _ => rel_values_refl _, rfl⟩

theorem trans {first second third : Request} (hfirst : first.SameFilters second)
    (hsecond : second.SameFilters third) : first.SameFilters third := by
  refine ⟨fun key => ?_, hfirst.filterable.trans hsecond.filterable⟩
  have hleft := hfirst.values key
  have hright := hsecond.values key
  generalize first.filters.find? key = left at hleft ⊢
  generalize second.filters.find? key = middle at hleft hright
  generalize third.filters.find? key = right at hright ⊢
  cases hleft with
  | none => exact hright
  | some hleft =>
      cases hright with
      | some hright => exact .some (hleft.trans hright)

end SameFilters

/-- The values of a key with one more. -/
def pushed (value : String) (before : Option FilterValue) : FilterValue :=
  before.elim (.single value) (FilterValue.push value)

theorem values_pushed (value : String) (before : Option FilterValue) :
    (pushed value before).values = before.elim [] FilterValue.values ++ [value] := by
  cases before with
  | none => rfl
  | some before => exact FilterValue.values_push value before

theorem find?_addFilter (request : Request) (key value name : String) :
    (request.addFilter key value).filters.find? name =
      if name = key then some (pushed value (request.filters.find? name))
      else request.filters.find? name := by
  split
  next hname =>
    subst hname
    rw [addFilter, Dict.find?_insert_self]
    cases request.filters.find? name <;> rfl
  next hname => exact Dict.find?_insert_of_ne request.filters hname _

/-- One more filter keeps requests the same. -/
theorem SameFilters.addFilter {first second : Request} (hsame : first.SameFilters second)
    (key value : String) :
    (first.addFilter key value).SameFilters (second.addFilter key value) := by
  refine ⟨fun name => ?_, hsame.filterable⟩
  have hvalues := hsame.values name
  rw [find?_addFilter, find?_addFilter]
  split
  · generalize first.filters.find? name = left at hvalues ⊢
    generalize second.filters.find? name = right at hvalues ⊢
    apply Option.Rel.some
    rw [values_pushed, values_pushed]
    cases hvalues with
    | none => exact .refl _
    | some hvalues => exact hvalues.append_right [value]
  · exact hvalues

/-- Two filters may be added one way round or the other. -/
theorem sameFilters_swap (request : Request) (key value other another : String) :
    ((request.addFilter key value).addFilter other another).SameFilters
      ((request.addFilter other another).addFilter key value) := by
  refine ⟨fun name => ?_, rfl⟩
  simp only [find?_addFilter]
  by_cases hkey : name = key
  · by_cases hother : name = other
    · -- Both values are of the one key.
      rw [if_pos hkey, if_pos hother, if_pos hother, if_pos hkey]
      apply Option.Rel.some
      simp only [values_pushed, Option.elim_some, List.append_assoc]
      exact (List.Perm.swap another value []).append_left _
    · rw [if_neg hother, if_pos hkey, if_pos hkey, if_neg hother]
      exact rel_values_refl _
  · rw [if_neg hkey, if_neg hkey]
    exact rel_values_refl _

theorem SameFilters.addFilters {first second : Request} (hsame : first.SameFilters second)
    (additions : List (String × String)) :
    (first.addFilters additions).SameFilters (second.addFilters additions) := by
  induction additions generalizing first second with
  | nil => exact hsame
  | cons addition additions ih => exact ih (hsame.addFilter addition.1 addition.2)

/-- The order in which filters are added makes no difference but in the order of the values of a
key. -/
theorem sameFilters_of_perm {additions others : List (String × String)}
    (hperm : additions.Perm others) (request : Request) :
    (request.addFilters additions).SameFilters (request.addFilters others) := by
  induction hperm generalizing request with
  | nil => exact .refl request
  | cons addition _ ih => exact ih (request.addFilter addition.1 addition.2)
  | swap first second rest =>
      exact (request.sameFilters_swap second.1 second.2 first.1 first.2).addFilters rest
  | trans _ _ ihfirst ihsecond => exact (ihfirst request).trans (ihsecond request)

end Request

end FilterSql

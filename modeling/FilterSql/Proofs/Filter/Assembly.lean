/-
What the predicate of a request is put together from.

Its parts are the predicates of single values, one for every plain value that a filter is
read as, and the joins that a global search puts first, all of fields that may be filtered
on.  AND, OR and left joins put them together in the order they come in.  Whatever stands
between two parts, a name is joined as the first part says that joins a table under it, and
it is joined once.
-/
import Mathlib.Data.List.Nodup
import FilterSql.Proofs.Traversal
import FilterSql.Query.Basic

namespace FilterSql

namespace Join

@[simp] theorem asName_outer (join : Join) : join.outer.asName = join.asName := rfl

@[simp] theorem outer_outer (join : Join) : join.outer.outer = join.outer := rfl

/-- The join of a name, as a left join whatever its kind. -/
def named? (name : String) (joins : List Join) : Option Join :=
  (joins.find? (·.asName = name)).map outer

@[simp] theorem named?_nil (name : String) : named? name [] = none := rfl

theorem exists_mem_of_named? {name : String} {joins : List Join} {found : Join}
    (hfound : named? name joins = some found) :
    ∃ join ∈ joins, join.asName = name ∧ join.outer = found := by
  obtain ⟨join, hjoin, houter⟩ := Option.map_eq_some_iff.mp hfound
  exact ⟨join, List.mem_of_find?_eq_some hjoin, by simpa using List.find?_some hjoin, houter⟩

theorem exists_named?_of_mem {join : Join} {joins : List Join} (hjoin : join ∈ joins) :
    ∃ first, named? join.asName joins = some first := by
  rw [← Option.isSome_iff_exists, named?, Option.isSome_map, List.find?_isSome]
  exact ⟨join, hjoin, by simp⟩

theorem named?_of_nodup {joins : List Join} (hnames : (joins.map asName).Nodup) {join : Join}
    (hjoin : join ∈ joins) : named? join.asName joins = some join.outer := by
  obtain ⟨first, hfirst⟩ := exists_named?_of_mem hjoin
  obtain ⟨other, hother, hname, rfl⟩ := exists_mem_of_named? hfirst
  rw [hfirst, List.inj_on_of_nodup_map hnames hother hjoin hname]

theorem named?_append (name : String) (first second : List Join) :
    named? name (first ++ second) = (named? name first).or (named? name second) := by
  rw [named?, List.find?_append, Option.map_or]
  rfl

theorem named?_cons (name : String) (join : Join) (joins : List Join) :
    named? name (join :: joins) =
      if join.asName = name then some join.outer else named? name joins := by
  rw [named?, List.find?_cons]
  by_cases hname : join.asName = name <;> simp [hname, named?]

@[simp] theorem named?_map_outer (name : String) (joins : List Join) :
    named? name (joins.map outer) = named? name joins := by
  induction joins with
  | nil => rfl
  | cons join joins ih => simp [named?_cons, ih]

theorem map_asName_map_outer (joins : List Join) :
    (joins.map outer).map asName = joins.map asName := by
  simp

theorem map_outer_insertInto (join : Join) (others : List Join) :
    (join.insertInto others).map outer = join.outer.insertInto (others.map outer) := by
  induction others with
  | nil => rfl
  | cons other others ih =>
      rw [List.map_cons, insertInto, insertInto, asName_outer, asName_outer]
      by_cases hname : other.asName = join.asName
      · rw [if_pos hname, if_pos hname, List.map_cons]
        split <;> rfl
      · rw [if_neg hname, if_neg hname, List.map_cons, ih]

/-- A join that is added counts only where its name is new. -/
theorem named?_insertInto (name : String) (join : Join) (others : List Join) :
    named? name (join.insertInto others) = (named? name others).or (named? name [join]) := by
  induction others with
  | nil => rfl
  | cons other others ih =>
      rw [insertInto]
      by_cases hsame : other.asName = join.asName
      · have hkept : (if join.kind = .left then other.outer else other).asName = other.asName ∧
            (if join.kind = .left then other.outer else other).outer = other.outer := by
          split <;> exact ⟨rfl, rfl⟩
        simp only [hsame, ↓reduceIte, named?_cons, hkept, named?_nil]
        by_cases hname : join.asName = name <;> simp [hname]
      · simp only [hsame, ↓reduceIte, named?_cons, ih]
        by_cases hname : other.asName = name <;> simp [hname]

theorem named?_foldl_insertInto (name : String) (added start : List Join) :
    named? name (added.foldl (fun joins join => join.insertInto joins) start) =
      (named? name start).or (named? name added) := by
  induction added generalizing start with
  | nil => simp
  | cons join added ih =>
      rw [List.foldl_cons, ih, named?_insertInto, Option.or_assoc, ← named?_append]
      rfl

theorem insertInto_of_notMem {join : Join} {others : List Join}
    (hnew : join.asName ∉ others.map asName) : join.insertInto others = others ++ [join] := by
  induction others with
  | nil => rfl
  | cons other others ih =>
      rw [List.map_cons, List.mem_cons, not_or] at hnew
      rw [insertInto, if_neg (Ne.symm hnew.1), ih hnew.2, List.cons_append]

theorem map_asName_insertInto_of_mem {join : Join} {others : List Join}
    (hold : join.asName ∈ others.map asName) :
    (join.insertInto others).map asName = others.map asName := by
  induction others with
  | nil => cases hold
  | cons other others ih =>
      rw [insertInto]
      split
      next =>
        -- The join that is there may become a left join; its name stays.
        rw [List.map_cons, List.map_cons]
        split <;> rfl
      next hother =>
        rw [List.map_cons, List.mem_cons] at hold
        rw [List.map_cons, List.map_cons, ih (hold.resolve_left (Ne.symm hother))]

theorem nodup_asName_insertInto (join : Join) {others : List Join}
    (hothers : (others.map asName).Nodup) : ((join.insertInto others).map asName).Nodup := by
  by_cases hold : join.asName ∈ others.map asName
  · rw [map_asName_insertInto_of_mem hold]
    exact hothers
  · rw [insertInto_of_notMem hold, List.map_append, List.nodup_append]
    refine ⟨hothers, by simp, ?_⟩
    rintro name hname _ hsingle rfl
    rw [List.map_singleton, List.mem_singleton] at hsingle
    exact hold (hsingle ▸ hname)

/-- Joins of different names are all kept, each as it is. -/
theorem foldl_insertInto_of_nodup {added start : List Join}
    (hnames : ((start ++ added).map asName).Nodup) :
    added.foldl (fun joins join => join.insertInto joins) start = start ++ added := by
  induction added generalizing start with
  | nil => simp
  | cons join added ih =>
      have hnew : join.asName ∉ start.map asName := by
        intro hold
        rw [List.map_append, List.nodup_append] at hnames
        exact hnames.2.2 _ hold _ (by simp) rfl
      rw [List.foldl_cons, insertInto_of_notMem hnew, ih (by simpa using hnames),
        List.append_assoc, List.singleton_append]

end Join

namespace Predicate

/-- A join without a condition. -/
def ofJoin (join : Join) : Predicate := ⟨.none, [join]⟩

theorem withJoin_eq_and (predicate : Predicate) (join : Join) :
    predicate.withJoin join = predicate.and (ofJoin join) := by
  rcases predicate with ⟨_ | condition, joins⟩ <;> rfl

/-- A predicate that is put together from parts, in the order they are listed. -/
inductive Assembled : List Predicate → Predicate → Prop
  | none : Assembled [] .none
  | part (predicate : Predicate) : Assembled [predicate] predicate
  | and {first second : List Predicate} {left right : Predicate} (hleft : Assembled first left)
      (hright : Assembled second right) : Assembled (first ++ second) (left.and right)
  | or {first second : List Predicate} {left right : Predicate} (hleft : Assembled first left)
      (hright : Assembled second right) : Assembled (first ++ second) (left.or right)
  | outer {parts : List Predicate} {predicate : Predicate} (h : Assembled parts predicate) :
      Assembled parts predicate.outerJoins

namespace Assembled

/-- The join of a name is the one of the first part that has a join of the name. -/
theorem named?_joins {parts : List Predicate} {predicate : Predicate}
    (h : Assembled parts predicate) (name : String) :
    Join.named? name predicate.joins = Join.named? name (parts.flatMap joins) := by
  induction h with
  | none => rfl
  | part predicate => simp
  | and _ _ ihleft ihright | or _ _ ihleft ihright =>
      rw [List.flatMap_append, Join.named?_append, ← ihleft, ← ihright]
      exact Join.named?_foldl_insertInto name _ _
  | outer _ ih => rw [outerJoins, Join.named?_map_outer, ih]

/-- What AND, OR and left joins keep holds of a predicate when it holds of its parts. -/
theorem preserves {R : Predicate → Prop} (hnone : R Predicate.none)
    (hand : ∀ left right : Predicate, R left → R right → R (left.and right))
    (hor : ∀ left right : Predicate, R left → R right → R (left.or right))
    (houter : ∀ predicate : Predicate, R predicate → R predicate.outerJoins)
    {parts : List Predicate} {predicate : Predicate} (h : Assembled parts predicate)
    (hparts : ∀ part ∈ parts, R part) : R predicate := by
  induction h with
  | none => exact hnone
  | part predicate => exact hparts predicate List.mem_cons_self
  | and _ _ ihleft ihright =>
      rw [List.forall_mem_append] at hparts
      exact hand _ _ (ihleft hparts.1) (ihright hparts.2)
  | or _ _ ihleft ihright =>
      rw [List.forall_mem_append] at hparts
      exact hor _ _ (ihleft hparts.1) (ihright hparts.2)
  | outer _ ih => exact houter _ (ih hparts)

/-- Each name is joined once. -/
theorem nodup_joins {parts : List Predicate} {predicate : Predicate}
    (h : Assembled parts predicate)
    (hparts : ∀ part ∈ parts, (part.joins.map Join.asName).Nodup) :
    (predicate.joins.map Join.asName).Nodup := by
  have hcombine : ∀ added start : List Join, (start.map Join.asName).Nodup →
      ((added.foldl (fun joins join => join.insertInto joins) start).map Join.asName).Nodup := by
    intro added start hstart
    refine @List.foldlRecOn _ _ (fun joins : List Join => (joins.map Join.asName).Nodup) _ _ _
      hstart ?_
    intro joins hjoins join _
    exact Join.nodup_asName_insertInto join hjoins
  refine preserves (R := fun part => (part.joins.map Join.asName).Nodup) ?_ ?_ ?_ ?_ h hparts
  · exact List.nodup_nil
  · exact fun left right hleft _ => hcombine right.joins left.joins hleft
  · exact fun left right hleft _ => hcombine right.joins left.joins hleft
  · intro part hpart
    rw [outerJoins, Join.map_asName_map_outer]
    exact hpart

theorem foldl {op : Predicate → Predicate → Predicate}
    (hop : ∀ {first second : List Predicate} {left right : Predicate}, Assembled first left →
      Assembled second right → Assembled (first ++ second) (op left right))
    {partLists : List (List Predicate)} {predicates : List Predicate}
    (hparts : List.Forall₂ Assembled partLists predicates) {before : List Predicate}
    {start : Predicate} (hstart : Assembled before start) :
    Assembled (before ++ partLists.flatten) (predicates.foldl op start) := by
  induction hparts generalizing before start with
  | nil => simpa using hstart
  | cons hfirst _ ih =>
      rw [List.foldl_cons, List.flatten_cons, ← List.append_assoc]
      exact ih (hop hstart hfirst)

theorem all {partLists : List (List Predicate)} {predicates : List Predicate}
    (hparts : List.Forall₂ Assembled partLists predicates) :
    Assembled partLists.flatten (Predicate.all predicates) :=
  foldl (fun hleft hright => and hleft hright) hparts none

theorem any {partLists : List (List Predicate)} {predicates : List Predicate}
    (hparts : List.Forall₂ Assembled partLists predicates) :
    Assembled partLists.flatten (Predicate.any predicates) :=
  foldl (fun hleft hright => or hleft hright) hparts none

theorem any_map {α : Type} {parts : α → List Predicate} {predicate : α → Predicate}
    (hparts : ∀ item, Assembled (parts item) (predicate item)) (items : List α) :
    Assembled (items.flatMap parts) (Predicate.any (items.map predicate)) := by
  have hpairs : List.Forall₂ Assembled (items.map parts) (items.map predicate) := by
    rw [List.forall₂_map_left_iff, List.forall₂_map_right_iff, List.forall₂_same]
    exact fun item _ => hparts item
  exact any hpairs

theorem foldl_withJoin {parts : List Predicate} {predicate : Predicate}
    (h : Assembled parts predicate) (added : List Join) :
    Assembled (parts ++ added.map ofJoin) (added.foldl withJoin predicate) := by
  induction added generalizing parts predicate with
  | nil => simpa using h
  | cons join added ih =>
      rw [List.foldl_cons, withJoin_eq_and]
      have hjoined := ih (h.and (part (ofJoin join)))
      rwa [List.append_assoc] at hjoined

end Assembled

end Predicate

open Predicate (Assembled)

/-- The plain values that a filter value is read as; none where it cannot be read. -/
def filterLeaves (raw : String) : List String :=
  if NullCheck.isAsked raw || !isComposite raw then [raw]
  else
    match Tree.ofText raw with
    | .ok tree => tree.leaves
    | .error _ => []

section Parts

variable (scope : Scope)

/-- The predicates of the plain values of a filter value. -/
def Field.filterParts (field : Field) (raw : String) : List Predicate :=
  (filterLeaves raw).map (field.valuePredicate scope)

/-- The joins of a global search, and what each field makes of the term. -/
def searchParts (fields : List Field) (term : String) : List Predicate :=
  if (Text.trimmed term).isEmpty then []
  else (fields.filterMap (Field.searchJoin? scope)).map Predicate.ofJoin ++
    fields.map fun field => field.valuePredicate scope (Text.trimmed term)

variable {scope}

theorem Field.assembled_treePredicate (field : Field) (tree : Tree) :
    Assembled (tree.leaves.map (field.valuePredicate scope)) (field.treePredicate scope tree) := by
  induction tree with
  | leaf raw => exact .part _
  | and left right ihleft ihright =>
      rw [Tree.leaves, List.map_append]
      exact ihleft.and ihright
  | or left right ihleft ihright =>
      rw [Tree.leaves, List.map_append]
      exact ihleft.or ihright

theorem Field.assembled_filterPredicate {field : Field} {raw : String} {predicate : Predicate}
    (hpredicate : field.filterPredicate scope raw = .ok predicate) :
    Assembled (field.filterParts scope raw) predicate := by
  rw [filterPredicate] at hpredicate
  rw [filterParts, filterLeaves]
  split
  next hplain =>
    rw [if_pos hplain] at hpredicate
    cases hpredicate
    exact .part _
  next hcomposite =>
    rw [if_neg hcomposite] at hpredicate
    obtain ⟨tree, htree, hpredicate⟩ := bind_eq_ok.mp hpredicate
    rw [htree]
    have hassembled : Assembled (tree.leaves.map (field.valuePredicate scope))
        (field.treePredicate scope tree) := field.assembled_treePredicate tree
    split at hpredicate
    · cases hpredicate
      exact hassembled.outer
    · cases hpredicate
      exact hassembled

theorem assembled_searchPredicate (fields : List Field) (term : String) :
    Assembled (searchParts scope fields term) (searchPredicate scope fields term) := by
  rw [searchParts, searchPredicate]
  split
  next => exact .none
  next =>
    have hvalues := Assembled.any_map (fun field : Field =>
      Assembled.part (field.valuePredicate scope (Text.trimmed term))) fields
    rw [← List.map_eq_flatMap] at hvalues
    exact (Assembled.none.foldl_withJoin _).and hvalues

end Parts

/-- A part that a field brings: what a value makes of it, or the join it is searched through. -/
def Field.Brings (scope : Scope) (field : Field) (part : Predicate) : Prop :=
  (∃ raw, part = field.valuePredicate scope raw) ∨
    ∃ join, field.searchJoin? scope = some join ∧ part = .ofJoin join

theorem Field.brings_of_mem_filterParts {scope : Scope} {field : Field} {raw : String}
    {part : Predicate} (hpart : part ∈ field.filterParts scope raw) : field.Brings scope part := by
  obtain ⟨leaf, -, rfl⟩ := List.mem_map.mp hpart
  exact Or.inl ⟨leaf, rfl⟩

theorem exists_brings_of_mem_searchParts {scope : Scope} {fields : List Field} {term : String}
    {part : Predicate} (hpart : part ∈ searchParts scope fields term) :
    ∃ field ∈ fields, field.Brings scope part := by
  rw [searchParts] at hpart
  split at hpart
  · cases hpart
  · rcases List.mem_append.mp hpart with hpart | hpart
    · obtain ⟨join, hjoin, rfl⟩ := List.mem_map.mp hpart
      obtain ⟨field, hfield, hjoin⟩ := List.mem_filterMap.mp hjoin
      exact ⟨field, hfield, Or.inr ⟨join, hjoin, rfl⟩⟩
    · obtain ⟨field, hfield, rfl⟩ := List.mem_map.mp hpart
      exact ⟨field, hfield, Or.inl ⟨_, rfl⟩⟩

namespace Schema

variable (schema : Schema) (config : Config)

/-- The fields that a global search asks. -/
def searchedFields (fields : List (String × Field)) : List Field :=
  (fields.map Prod.snd).filter Field.isSearchable

/-- The parts that a filter key brings. -/
def keyParts (fields : List (String × Field)) (key : String) (value : FilterValue) :
    List Predicate :=
  let values := usableValues config value
  if key = config.searchKey then
    values.flatMap (searchParts (config.scope schema.tableName) (searchedFields fields))
  else
    match valueNamed? key fields with
    | some field => values.flatMap (field.filterParts (config.scope schema.tableName))
    | none => []

/-- The parts that all filters of a request bring, in their order. -/
def requestParts (request : Request) : List Predicate :=
  request.filters.entries.flatMap fun (key, value) =>
    schema.keyParts config (schema.filterableFields request.filterable) key value

variable {schema config}

theorem assembled_fieldValues {field : Field} {key : String} {values : List String}
    {predicate : Predicate}
    (hpredicate : schema.fieldValues config key field values = .ok predicate) :
    Assembled (values.flatMap (field.filterParts (config.scope schema.tableName))) predicate := by
  obtain ⟨predicates, hvalues, hpredicate⟩ := bind_eq_ok.mp hpredicate
  cases hpredicate
  cases hmapped : values.mapM (field.filterPredicate (config.scope schema.tableName)) with
  | error reason => simp [hmapped, Except.mapError] at hvalues
  | ok mapped =>
      simp only [hmapped, Except.mapError, Except.ok.injEq] at hvalues
      subst hvalues
      rw [List.flatMap_def]
      apply Assembled.any
      rw [List.forall₂_map_left_iff]
      exact (mapM_eq_ok.mp hmapped).imp fun _ _ hraw => Field.assembled_filterPredicate hraw

theorem assembled_keyPredicate {fields : List (String × Field)} {key : String}
    {value : FilterValue} {predicate : Predicate}
    (hpredicate : schema.keyPredicate config fields key value = .ok predicate) :
    Assembled (schema.keyParts config fields key value) predicate := by
  simp only [keyPredicate] at hpredicate
  simp only [keyParts]
  split
  next hsearch =>
    rw [if_pos hsearch] at hpredicate
    cases hpredicate
    exact Assembled.any_map (assembled_searchPredicate (searchedFields fields)) _
  next hfield =>
    rw [if_neg hfield] at hpredicate
    cases hnamed : valueNamed? key fields with
    | some field =>
        simp only [hnamed] at hpredicate
        exact assembled_fieldValues hpredicate
    | none =>
        simp only [hnamed, Except.ok.injEq] at hpredicate
        exact hpredicate ▸ .none

/-- What all filters of a request ask for together is put together from the parts that they
bring. -/
theorem assembled_requestPredicate {request : Request} {predicate : Predicate}
    (hpredicate : schema.requestPredicate request config = .ok predicate) :
    Assembled (schema.requestParts config request) predicate := by
  obtain ⟨predicates, hkeys, hpredicate⟩ := bind_eq_ok.mp hpredicate
  cases hpredicate
  rw [requestParts, List.flatMap_def]
  apply Assembled.all
  rw [List.forall₂_map_left_iff]
  exact (mapM_eq_ok.mp hkeys).imp fun _ _ hkey => assembled_keyPredicate hkey

/-- The fields that a request may filter on. -/
def allowedFields (schema : Schema) (request : Request) : List Field :=
  (schema.filterableFields request.filterable).map Prod.snd

theorem exists_brings_of_mem_requestParts {request : Request} {part : Predicate}
    (hpart : part ∈ schema.requestParts config request) :
    ∃ field ∈ schema.allowedFields request, field.Brings (config.scope schema.tableName) part := by
  obtain ⟨⟨key, value⟩, -, hpart⟩ := List.mem_flatMap.mp hpart
  simp only [keyParts] at hpart
  split at hpart
  · obtain ⟨term, -, hpart⟩ := List.mem_flatMap.mp hpart
    obtain ⟨field, hfield, hbrings⟩ := exists_brings_of_mem_searchParts hpart
    exact ⟨field, (List.mem_filter.mp hfield).1, hbrings⟩
  · split at hpart
    next field hnamed =>
      obtain ⟨raw, -, hpart⟩ := List.mem_flatMap.mp hpart
      exact ⟨field, List.mem_map_of_mem (mem_of_valueNamed? hnamed),
        Field.brings_of_mem_filterParts hpart⟩
    next => cases hpart

end Schema

end FilterSql

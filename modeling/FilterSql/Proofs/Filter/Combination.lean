/-
Properties that survive combination.

A property of conditions that AND and OR keep, and one of joins that holds of the left
join too, hold of a combined predicate as soon as they hold of its parts.  What is shown
for single values of single fields then holds of expressions, of the global search and of
whole requests.
-/
import FilterSql.Proofs.Filter.Assembly

namespace FilterSql

namespace Predicate

theorem foldl_withJoin (joins : List Join) (start : Predicate) :
    joins.foldl withJoin start =
      ⟨start.condition, joins.foldl (fun joins join => join.insertInto joins) start.joins⟩ := by
  induction joins generalizing start with
  | nil => rfl
  | cons join joins ih => rw [List.foldl_cons, ih, List.foldl_cons, withJoin]

/-- A property of conditions and one of joins that combining predicates keeps. -/
structure Stable (P : Expr → Prop) (Q : Join → Prop) : Prop where
  and : ∀ left right : Expr, P left → P right → P (left.and right)
  or : ∀ left right : Expr, P left → P right → P (left.or right)
  outer : ∀ join : Join, Q join → Q join.outer

/-- The condition has one property, and every join another. -/
structure Satisfies (P : Expr → Prop) (Q : Join → Prop) (predicate : Predicate) : Prop where
  condition : ∀ condition ∈ predicate.condition, P condition
  joins : ∀ join ∈ predicate.joins, Q join

section Satisfies

variable {P : Expr → Prop} {Q : Join → Prop}

theorem satisfies_none : Satisfies P Q none where
  condition := by simp [none]
  joins := by simp [none]

theorem satisfies_ofOption {condition : Option Expr} (hcondition : ∀ expr ∈ condition, P expr) :
    Satisfies P Q (ofOption condition) where
  condition := hcondition
  joins := by simp [ofOption]

variable (hstable : Stable P Q)
include hstable

theorem Stable.of_mem_insertInto {join : Join} {others : List Join} (hjoin : Q join)
    (hothers : ∀ other ∈ others, Q other) : ∀ other ∈ join.insertInto others, Q other := by
  induction others with
  | nil =>
      intro other hother
      rcases List.mem_singleton.mp hother with rfl
      exact hjoin
  | cons first rest ih =>
      have hfirst := hothers first List.mem_cons_self
      have hrest : ∀ other ∈ rest, Q other :=
        fun other hother => hothers other (List.mem_cons_of_mem _ hother)
      intro other hother
      rw [Join.insertInto] at hother
      split at hother
      -- A join of the same name stays, but a left join makes it a left join as well.
      · rcases List.mem_cons.mp hother with rfl | hother
        · split
          · exact hstable.outer first hfirst
          · exact hfirst
        · exact hrest other hother
      · rcases List.mem_cons.mp hother with rfl | hother
        · exact hfirst
        · exact ih hrest other hother

theorem Stable.of_mem_foldl_insertInto {added joins : List Join} (hadded : ∀ join ∈ added, Q join)
    (hjoins : ∀ join ∈ joins, Q join) :
    ∀ join ∈ added.foldl (fun joins join => join.insertInto joins) joins, Q join := by
  refine @List.foldlRecOn _ _ (fun sofar => ∀ join ∈ sofar, Q join) added _ joins hjoins ?_
  intro sofar hsofar join hjoin
  exact hstable.of_mem_insertInto (hadded join hjoin) hsofar

theorem Satisfies.outerJoins {predicate : Predicate} (hpredicate : predicate.Satisfies P Q) :
    predicate.outerJoins.Satisfies P Q where
  condition := hpredicate.condition
  joins := by
    intro join hjoin
    obtain ⟨inner, hinner, rfl⟩ := List.mem_map.mp hjoin
    exact hstable.outer inner (hpredicate.joins inner hinner)

theorem Satisfies.combine {op : Expr → Expr → Expr}
    (hop : ∀ left right : Expr, P left → P right → P (op left right)) {left right : Predicate}
    (hleft : left.Satisfies P Q) (hright : right.Satisfies P Q) :
    (combine op left right).Satisfies P Q where
  condition := by
    rcases left with ⟨leftCondition, leftJoins⟩
    rcases right with ⟨rightCondition, rightJoins⟩
    cases leftCondition with
    | none =>
        cases rightCondition with
        | none => exact hleft.condition
        | some right => exact hright.condition
    | some left =>
        cases rightCondition with
        | none => exact hleft.condition
        | some right =>
            intro condition hcondition
            cases hcondition
            exact hop left right (hleft.condition left rfl) (hright.condition right rfl)
  joins := hstable.of_mem_foldl_insertInto hright.joins hleft.joins

theorem Satisfies.and {left right : Predicate} (hleft : left.Satisfies P Q)
    (hright : right.Satisfies P Q) : (left.and right).Satisfies P Q :=
  hleft.combine hstable hstable.and hright

theorem Satisfies.or {left right : Predicate} (hleft : left.Satisfies P Q)
    (hright : right.Satisfies P Q) : (left.or right).Satisfies P Q :=
  hleft.combine hstable hstable.or hright

/-- What the parts of a predicate satisfy, the predicate satisfies. -/
theorem Assembled.satisfies {parts : List Predicate} {predicate : Predicate}
    (h : Assembled parts predicate) (hparts : ∀ part ∈ parts, part.Satisfies P Q) :
    predicate.Satisfies P Q :=
  h.preserves satisfies_none (fun _ _ hleft hright => hleft.and hstable hright)
    (fun _ _ hleft hright => hleft.or hstable hright) (fun _ hpart => hpart.outerJoins hstable)
    hparts

end Satisfies

end Predicate

section Requests

open Predicate

/-- Every value of a field makes a predicate of these properties, and so does its join. -/
structure Field.Meets (P : Expr → Prop) (Q : Join → Prop) (scope : Scope) (field : Field) :
    Prop where
  value : ∀ raw, (field.valuePredicate scope raw).Satisfies P Q
  join : ∀ join ∈ field.searchJoin? scope, Q join

variable {P : Expr → Prop} {Q : Join → Prop}

theorem Field.Meets.of_brings {scope : Scope} {field : Field} (hfield : field.Meets P Q scope)
    {part : Predicate} (hpart : field.Brings scope part) : part.Satisfies P Q := by
  rcases hpart with ⟨raw, rfl⟩ | ⟨join, hjoin, rfl⟩
  · exact hfield.value raw
  · constructor
    · simp [ofJoin]
    · intro other hother
      rw [List.mem_singleton.mp hother]
      exact hfield.join join hjoin

/-- What every value of every field that may be filtered on satisfies, all filters of a request
satisfy together. -/
theorem Schema.satisfies_requestPredicate (hstable : Stable P Q) {schema : Schema}
    {config : Config} {request : Request}
    (hfields : ∀ field ∈ schema.allowedFields request,
      field.Meets P Q (config.scope schema.tableName))
    {predicate : Predicate} (hpredicate : schema.requestPredicate request config = .ok predicate) :
    predicate.Satisfies P Q := by
  apply (assembled_requestPredicate hpredicate).satisfies hstable
  intro part hpart
  obtain ⟨field, hfield, hbrings⟩ := exists_brings_of_mem_requestParts hpart
  exact (hfields field hfield).of_brings hbrings

end Requests

end FilterSql

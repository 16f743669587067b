/-
The columns that a field stands for.

The texts of a field stand for its own column, for the related ones that it is searched by and
for the one that its relation points to.  Whatever value is asked for, the conditions that come
of it, and the join, are about these columns alone.  So what the conditions on such columns
satisfy, all filters of a request do.
-/
import FilterSql.Proofs.Filter.Combination
import FilterSql.Proofs.Filter.ConditionNodes
import FilterSql.Proofs.Filter.ValueCases

namespace FilterSql

/-- The nodes of expressions about some columns; they have no stars, and no names of results. -/
def Expr.IsAbout (named : ColumnName → Prop) : Expr → Prop
  | .column name => named name
  | .call function _ => function = "LOWER"
  | .star _ | .callStar _ | .named _ _ => False
  | .value _ | .binary _ _ _ | .castText _ | .inList _ _ _ | .between _ _ _ _ | .isNull _ _ |
      .datePart _ _ => True

variable {named : ColumnName → Prop}

theorem Expr.IsAbout.imp {other : ColumnName → Prop} {node : Expr} (hnode : node.IsAbout named)
    (himp : ∀ name, named name → other name) : node.IsAbout other := by
  cases node with
  | column name => exact himp name hnode
  | _ => exact hnode

theorem ColumnName.IsConditionNode.isAbout {column : ColumnName} (hcolumn : named column)
    {node : Expr} (hnode : column.IsConditionNode node) : node.IsAbout named := by
  cases node with
  | column name =>
      cases hnode
      exact hcolumn
  | call => exact hnode
  | star | callStar | named | isNull => exact hnode.elim
  | value | binary | castText | inList | between | datePart => trivial

theorem ColumnName.every_isAbout_of_condition? {column : ColumnName} (hcolumn : named column)
    {cast raw : String} {mode : DefaultMatch} :
    ∀ expr ∈ column.condition? cast raw mode, expr.Every (Expr.IsAbout named) := by
  intro expr hexpr
  exact (ColumnName.every_condition? hexpr).imp fun _ hnode => hnode.isAbout hcolumn

theorem Predicate.stable_isAbout :
    Stable (fun expr => expr.Every (Expr.IsAbout named))
      (fun join => join.on.Every (Expr.IsAbout named)) where
  and _ _ hleft hright := (Expr.every_binary _ _ _).mpr ⟨trivial, hleft, hright⟩
  or _ _ hleft hright := (Expr.every_binary _ _ _).mpr ⟨trivial, hleft, hright⟩
  outer _ hjoin := hjoin

namespace Field

/-- A name is a related column under the name of the join that a field is searched through. -/
structure ReadsRelated (scope : Scope) (field : Field) (join : Join) (name : ColumnName) :
    Prop where
  searched : field.searchJoin? scope = some join
  column : ∃ columns ∈ field.relatedColumns?, ∃ related ∈ columns,
    join.column? related.column = some name

/-- A column that the texts of a field stand for: its own, a related one that it is searched by,
or the one that its relation points to. -/
inductive Gives (scope : Scope) (field : Field) (name : ColumnName) : Prop
  | own (hname : field.column? scope = some name)
  | related {join : Join} (hname : field.ReadsRelated scope join name)
  | target {relation : Relation} {join : Join} (hrelation : field.relation = some relation)
      (hjoin : field.searchJoin? scope = some join)
      (hname : ColumnName.resolve? relation.relatedField join.asName = some name)

variable {scope : Scope} {field : Field}

/-- What the conditions on the columns that a field gives satisfy, the predicates of all of its
values do. -/
theorem meets_of_conditions {P : Expr → Prop} {Q : Join → Prop} (hstable : Predicate.Stable P Q)
    (hnull : ∀ name negated, field.Gives scope name → P (.isNull (.column name) negated))
    (hcondition : ∀ name cast raw mode, field.Gives scope name →
      ∀ expr ∈ name.condition? cast raw mode, P expr)
    (hjoin : ∀ join ∈ field.searchJoin? scope, Q join) : field.Meets P Q scope where
  join := hjoin
  value := by
    intro raw
    have hmakes : field.Makes scope raw (field.valuePredicate scope raw) := makes_valuePredicate
    generalize field.valuePredicate scope raw = predicate at hmakes ⊢
    cases hmakes with
    | nothing => exact Predicate.satisfies_none
    | @nullCheck key check hkey _ =>
        apply Predicate.satisfies_ofOption
        rintro expr ⟨⟩
        exact hnull key _ (.own hkey)
    | @own key mode hkey _ _ =>
        exact Predicate.satisfies_ofOption (hcondition key field.cast raw mode (.own hkey))
    | @related columns join condition _ hcolumns hsearched hmatching =>
        have hparts : ∀ part ∈ matchingParts columns join raw, part.Satisfies P Q := by
          intro part hpart
          obtain ⟨related, hrelated, column, condition, hcolumn, hcompiled, rfl⟩ :=
            exists_of_mem_matchingParts hpart
          have hgives : field.Gives scope column :=
            .related ⟨hsearched, columns, hcolumns, related, hrelated, hcolumn⟩
          apply Predicate.satisfies_ofOption
          rintro expr ⟨⟩
          exact hcondition column related.cast raw .byType hgives condition hcompiled
        constructor
        · exact (hmatching.satisfies hstable hparts).condition
        · intro other hother
          rw [List.mem_singleton.mp hother]
          exact hjoin join hsearched

/-- What the values of a field make, and its join, is about the columns that it gives. -/
theorem meets_isAbout (hgiven : ∀ name, field.Gives scope name → named name) :
    field.Meets (fun expr => expr.Every (Expr.IsAbout named))
      (fun join => join.on.Every (Expr.IsAbout named)) scope := by
  apply meets_of_conditions Predicate.stable_isAbout
  · intro name negated hname
    rw [Expr.every_isNull, Expr.every_column]
    exact ⟨trivial, hgiven name hname⟩
  · intro name cast raw mode hname
    exact ColumnName.every_isAbout_of_condition? (hgiven name hname)
  · intro join hjoin
    obtain ⟨relation, _, key, hrelation, -, hkey, hmade⟩ := searchJoin?_eq_some.mp hjoin
    obtain ⟨-, target, htarget, rfl⟩ := Relation.join?_eq_some.mp hmade
    rw [Expr.every_binary, Expr.every_column, Expr.every_column]
    exact ⟨trivial, hgiven target (.target hrelation hjoin htarget), hgiven key (.own hkey)⟩

end Field

namespace Schema

/-- A column that one of the fields stands for that a request may filter on. -/
def Gives (schema : Schema) (request : Request) (config : Config) (name : ColumnName) : Prop :=
  ∃ field ∈ schema.allowedFields request, field.Gives (config.scope schema.tableName) name

/-- What the filters of a request ask for is about columns of the fields that it may filter on. -/
theorem satisfies_isAbout {schema : Schema} {request : Request} {config : Config}
    {predicate : Predicate} (hpredicate : schema.requestPredicate request config = .ok predicate) :
    predicate.Satisfies (fun expr => expr.Every (Expr.IsAbout (schema.Gives request config)))
      (fun join => join.on.Every (Expr.IsAbout (schema.Gives request config))) := by
  refine satisfies_requestPredicate Predicate.stable_isAbout ?_ hpredicate
  intro field hfield
  exact Field.meets_isAbout fun name hname => ⟨field, hfield, hname⟩

end Schema

end FilterSql

/-
Clauses that are added to a statement.

A statement is built by additions to its clauses, one after another.  An addition changes its own
clause and no other, so the additions of each clause can be told apart from the rest: joins and
orderings are appended, conditions are joined from the left, and the last limit and offset count.
A predicate is written into a statement by additions as well, its joins before its condition.
-/
import Mathlib.Data.List.Induction
import FilterSql.Filter.Predicate

namespace FilterSql

/-- The expressions joined so far come first. -/
theorem Expr.conjunction?_concat (exprs : List Expr) (expr : Expr) :
    conjunction? (exprs ++ [expr]) = some ((conjunction? exprs).elim expr (·.and expr)) := by
  cases exprs with
  | nil => rfl
  | cons first exprs => simp [conjunction?]

/-- The clauses that additions are made to. -/
inductive Clause
  | join
  | condition
  | ordering
  | limit
  | offset
deriving DecidableEq, Repr

/-- What an addition to a clause brings. -/
abbrev Clause.Argument : Clause → Type
  | join => JoinClause
  | condition => Expr
  | ordering => OrderItem
  | limit => Expr
  | offset => Expr

/-- An addition to a clause. -/
structure Addition where
  clause : Clause
  argument : clause.Argument

namespace Addition

/-- The statement with the addition. -/
def addTo (select : Select) : Addition → Select
  | ⟨.join, join⟩ => select.addJoin join
  | ⟨.condition, condition⟩ => select.addCondition condition
  | ⟨.ordering, ordering⟩ => select.addOrdering ordering
  | ⟨.limit, limit⟩ => select.withLimit limit
  | ⟨.offset, offset⟩ => select.withOffset offset

/-- What an addition brings to a clause; nothing to all clauses but its own. -/
def argument? (clause : Clause) (addition : Addition) : Option clause.Argument :=
  if h : addition.clause = clause then some (h ▸ addition.argument) else none

end Addition

/-- What additions bring to a clause, in their order. -/
def Clause.arguments (clause : Clause) (additions : List Addition) : List clause.Argument :=
  additions.filterMap (Addition.argument? clause)

namespace Clause

variable {clause : Clause}

@[simp] theorem arguments_nil : clause.arguments [] = [] := rfl

@[simp] theorem arguments_append (additions others : List Addition) :
    clause.arguments (additions ++ others) =
      clause.arguments additions ++ clause.arguments others :=
  List.filterMap_append

@[simp] theorem arguments_cons_self (argument : clause.Argument) (additions : List Addition) :
    clause.arguments (⟨clause, argument⟩ :: additions) =
      argument :: clause.arguments additions := by
  simp [arguments, Addition.argument?]

theorem arguments_cons_of_ne {addition : Addition} (hne : addition.clause ≠ clause)
    (additions : List Addition) :
    clause.arguments (addition :: additions) = clause.arguments additions := by
  simp [arguments, Addition.argument?, hne]

theorem arguments_map_self (arguments : List clause.Argument) :
    clause.arguments (arguments.map (Addition.mk clause)) = arguments := by
  induction arguments with
  | nil => rfl
  | cons argument arguments ih => rw [List.map_cons, arguments_cons_self, ih]

theorem arguments_map_of_ne {other : Clause} (hne : other ≠ clause)
    (arguments : List other.Argument) :
    clause.arguments (arguments.map (Addition.mk other)) = [] := by
  induction arguments with
  | nil => rfl
  | cons argument arguments ih => rw [List.map_cons, arguments_cons_of_ne hne, ih]

/-- Neighbours of two clauses may change places. -/
theorem arguments_swap {first second : Addition} (hne : first.clause ≠ second.clause)
    (before after : List Addition) :
    clause.arguments (before ++ first :: second :: after) =
      clause.arguments (before ++ second :: first :: after) := by
  rw [arguments_append, arguments_append]
  congr 1
  by_cases hfirst : first.clause = clause
  · have hsecond : second.clause ≠ clause := fun hsecond => hne (hfirst.trans hsecond.symm)
    obtain ⟨own, argument⟩ := first
    subst hfirst
    rw [arguments_cons_self, arguments_cons_of_ne hsecond, arguments_cons_of_ne hsecond,
      arguments_cons_self]
  · rw [arguments_cons_of_ne hfirst]
    by_cases hsecond : second.clause = clause
    · obtain ⟨own, argument⟩ := second
      subst hsecond
      rw [arguments_cons_self, arguments_cons_self, arguments_cons_of_ne hfirst]
    · rw [arguments_cons_of_ne hsecond, arguments_cons_of_ne hsecond, arguments_cons_of_ne hfirst]

end Clause

/-- Additions that bring the same to every clause; of limits and offsets the last ones. -/
structure AgreeByClause (additions others : List Addition) : Prop where
  joins : Clause.join.arguments additions = Clause.join.arguments others
  conditions : Clause.condition.arguments additions = Clause.condition.arguments others
  orderings : Clause.ordering.arguments additions = Clause.ordering.arguments others
  limit : (Clause.limit.arguments additions).getLast? = (Clause.limit.arguments others).getLast?
  offset : (Clause.offset.arguments additions).getLast? = (Clause.offset.arguments others).getLast?

theorem AgreeByClause.of_arguments {additions others : List Addition}
    (hsame : ∀ clause : Clause, clause.arguments additions = clause.arguments others) :
    AgreeByClause additions others where
  joins := hsame .join
  conditions := hsame .condition
  orderings := hsame .ordering
  limit := by rw [hsame]
  offset := by rw [hsame]

namespace Select

/-- The statement with additions, one after another. -/
def addAll (select : Select) (additions : List Addition) : Select :=
  additions.foldl Addition.addTo select

/-- The statement with all additions at once, each clause with its own. -/
def extended (select : Select) (additions : List Addition) : Select where
  columns := select.columns
  source := select.source
  joins := select.joins ++ Clause.join.arguments additions
  condition :=
    Expr.conjunction? (select.condition.toList ++ Clause.condition.arguments additions)
  orderings := select.orderings ++ Clause.ordering.arguments additions
  limit := (Clause.limit.arguments additions).getLast?.or select.limit
  offset := (Clause.offset.arguments additions).getLast?.or select.offset

theorem extended_nil (select : Select) : select.extended [] = select := by
  obtain ⟨columns, source, joins, condition, orderings, limit, offset⟩ := select
  cases condition <;> simp [extended, Expr.conjunction?]

/-- One more addition changes its own clause alone. -/
theorem addTo_extended (select : Select) (additions : List Addition) (addition : Addition) :
    addition.addTo (select.extended additions) = select.extended (additions ++ [addition]) := by
  obtain ⟨clause, argument⟩ := addition
  cases clause with
  | join => simp [Addition.addTo, extended, addJoin, Clause.arguments_cons_of_ne]
  | condition =>
      have hjoined := Expr.conjunction?_concat
        (select.condition.toList ++ Clause.condition.arguments additions) argument
      rw [List.append_assoc] at hjoined
      simp only [Addition.addTo, extended, addCondition, Clause.arguments_append,
        Clause.arguments_cons_self, Clause.arguments_nil, hjoined]
      -- The condition from before is taken out, whether there was one or not.
      cases Expr.conjunction? (select.condition.toList ++ Clause.condition.arguments additions) <;>
        simp [Clause.arguments_cons_of_ne]
  | ordering => simp [Addition.addTo, extended, addOrdering, Clause.arguments_cons_of_ne]
  | limit => simp [Addition.addTo, extended, withLimit, Clause.arguments_cons_of_ne]
  | offset => simp [Addition.addTo, extended, withOffset, Clause.arguments_cons_of_ne]

/-- After any additions each clause has its own, whatever stands between them. -/
theorem addAll_eq_extended (select : Select) (additions : List Addition) :
    select.addAll additions = select.extended additions := by
  induction additions using List.reverseRecOn with
  | nil => exact select.extended_nil.symm
  | append_singleton additions addition ih =>
      rw [← addTo_extended, ← ih, addAll, List.foldl_append]
      rfl

theorem extended_ofColumns (columns : List Expr) (source : Source) (additions : List Addition) :
    (ofColumns columns source).extended additions =
      { columns := columns
        source := some source
        joins := Clause.join.arguments additions
        condition := Expr.conjunction? (Clause.condition.arguments additions)
        orderings := Clause.ordering.arguments additions
        limit := (Clause.limit.arguments additions).getLast?
        offset := (Clause.offset.arguments additions).getLast? } := by
  simp [extended, ofColumns]

theorem extended_congr (select : Select) {additions others : List Addition}
    (hagree : AgreeByClause additions others) :
    select.extended additions = select.extended others := by
  rw [extended, extended, hagree.joins, hagree.conditions, hagree.orderings, hagree.limit,
    hagree.offset]

end Select

namespace Predicate

/-- The additions that a predicate is written into a statement by. -/
def additions (predicate : Predicate) : List Addition :=
  (predicate.joins.map Join.toClause).map (Addition.mk .join) ++
    predicate.condition.toList.map (Addition.mk .condition)

theorem apply_eq_addAll (predicate : Predicate) (select : Select) :
    predicate.apply select = select.addAll predicate.additions := by
  have hjoined : ((predicate.joins.map Join.toClause).map (Addition.mk .join)).foldl
      Addition.addTo select =
        predicate.joins.foldl (fun select join => select.addJoin join.toClause) select := by
    rw [List.foldl_map, List.foldl_map]
    rfl
  rw [apply, Select.addAll, additions, List.foldl_append, hjoined]
  cases predicate.condition <;> rfl

theorem arguments_join_additions (predicate : Predicate) :
    Clause.join.arguments predicate.additions = predicate.joins.map Join.toClause := by
  rw [additions, Clause.arguments_append, Clause.arguments_map_self,
    Clause.arguments_map_of_ne (by decide), List.append_nil]

theorem arguments_condition_additions (predicate : Predicate) :
    Clause.condition.arguments predicate.additions = predicate.condition.toList := by
  rw [additions, Clause.arguments_append, Clause.arguments_map_self,
    Clause.arguments_map_of_ne (by decide), List.nil_append]

/-- A predicate brings nothing but joins and a condition. -/
theorem arguments_additions_of_ne (predicate : Predicate) {clause : Clause}
    (hjoin : clause ≠ .join) (hcondition : clause ≠ .condition) :
    clause.arguments predicate.additions = [] := by
  rw [additions, Clause.arguments_append, Clause.arguments_map_of_ne hjoin.symm,
    Clause.arguments_map_of_ne hcondition.symm, List.append_nil]

/-- With further additions after it a predicate leaves in front what was there. -/
theorem addAll_apply (predicate : Predicate) (select : Select) (additions : List Addition) :
    (predicate.apply select).addAll additions =
      { columns := select.columns
        source := select.source
        joins := select.joins ++
          (predicate.joins.map Join.toClause ++ Clause.join.arguments additions)
        condition := Expr.conjunction? (select.condition.toList ++
          (predicate.condition.toList ++ Clause.condition.arguments additions))
        orderings := select.orderings ++ Clause.ordering.arguments additions
        limit := (Clause.limit.arguments additions).getLast?.or select.limit
        offset := (Clause.offset.arguments additions).getLast?.or select.offset } := by
  have hall : (predicate.apply select).addAll additions =
      select.addAll (predicate.additions ++ additions) := by
    rw [apply_eq_addAll, Select.addAll, Select.addAll, Select.addAll, List.foldl_append]
  rw [hall, Select.addAll_eq_extended]
  simp [Select.extended, arguments_join_additions, arguments_condition_additions,
    arguments_additions_of_ne]

end Predicate

/-- A statement that is started from its columns and its table gets exactly what the additions
bring to each clause, in their order.  So additions to two clauses commute, additions that agree
clause by clause make equal statements, and a predicate with further additions after it leaves
what was there in front. -/
theorem Select.addAll_clausewise (select : Select) :
    (∀ additions, select.addAll additions = select.extended additions) ∧
      (∀ columns source additions, (ofColumns columns source).addAll additions =
        { columns := columns
          source := some source
          joins := Clause.join.arguments additions
          condition := Expr.conjunction? (Clause.condition.arguments additions)
          orderings := Clause.ordering.arguments additions
          limit := (Clause.limit.arguments additions).getLast?
          offset := (Clause.offset.arguments additions).getLast? }) ∧
      (∀ additions others, AgreeByClause additions others →
        select.addAll additions = select.addAll others) ∧
      (∀ before after first second, first.clause ≠ second.clause →
        select.addAll (before ++ first :: second :: after) =
          select.addAll (before ++ second :: first :: after)) ∧
      ∀ (predicate : Predicate) additions, (predicate.apply select).addAll additions =
        { columns := select.columns
          source := select.source
          joins := select.joins ++
            (predicate.joins.map Join.toClause ++ Clause.join.arguments additions)
          condition := Expr.conjunction? (select.condition.toList ++
            (predicate.condition.toList ++ Clause.condition.arguments additions))
          orderings := select.orderings ++ Clause.ordering.arguments additions
          limit := (Clause.limit.arguments additions).getLast?.or select.limit
          offset := (Clause.offset.arguments additions).getLast?.or select.offset } := by
  have hagree : ∀ additions others, AgreeByClause additions others →
      select.addAll additions = select.addAll others := by
    intro additions others hagree
    rw [addAll_eq_extended, addAll_eq_extended, select.extended_congr hagree]
  refine ⟨select.addAll_eq_extended, ?_, hagree, ?_, ?_⟩
  · intro columns source additions
    rw [addAll_eq_extended, extended_ofColumns]
  · intro before after first second hne
    exact hagree _ _ (.of_arguments fun _ => Clause.arguments_swap hne before after)
  · intro predicate additions
    exact predicate.addAll_apply select additions

namespace AddedClauses

/-- All columns of the users. -/
def users : Select :=
  .ofColumns [.star (some "users")] ⟨⟨none, "users"⟩, none⟩

def teams : Addition :=
  ⟨.join, .left, ⟨⟨none, "teams"⟩, some "team"⟩, .column ⟨some "team", "id"⟩⟩

def isActive : Addition :=
  ⟨.condition, .column ⟨some "users", "active"⟩⟩

def isNamed : Addition :=
  ⟨.condition, .isNull (.column ⟨some "users", "name"⟩) true⟩

def byName : Addition :=
  ⟨.ordering, .column ⟨some "users", "name"⟩, none⟩

def upTo (n : Int64) : Addition :=
  ⟨.limit, .value (.int n)⟩

/-- The clauses one after another, or mixed up, with a limit that does not count. -/
theorem addAll_users :
    AgreeByClause [teams, isActive, isNamed, byName, upTo 10]
        [upTo 5, isActive, byName, upTo 10, teams, isNamed] ∧
      users.addAll [teams, isActive, isNamed, byName, upTo 10] =
        users.addAll [upTo 5, isActive, byName, upTo 10, teams, isNamed] ∧
      teams.clause ≠ isNamed.clause ∧
      users.addAll ([isActive] ++ teams :: isNamed :: [byName]) =
        users.addAll ([isActive] ++ isNamed :: teams :: [byName]) ∧
      (users.addAll [upTo 5, isActive, byName, upTo 10, teams, isNamed]).condition =
        some (.and (.column ⟨some "users", "active"⟩)
          (.isNull (.column ⟨some "users", "name"⟩) true)) := by
  obtain ⟨-, -, hagree, hswap, -⟩ := users.addAll_clausewise
  have hclauses : AgreeByClause [teams, isActive, isNamed, byName, upTo 10]
      [upTo 5, isActive, byName, upTo 10, teams, isNamed] := ⟨rfl, rfl, rfl, rfl, rfl⟩
  have hne : teams.clause ≠ isNamed.clause := by decide
  exact ⟨hclauses, hagree _ _ hclauses, hne, hswap [isActive] [byName] teams isNamed hne, rfl⟩

end AddedClauses

end FilterSql

/-
How the joins of predicates are merged.

A predicate is built from conditions and joins, step by step.  Its joins depend on nothing but
the joins that the steps contribute, from left to right: each name is joined once, in the place
and as the table of its first contribution, and by a left join when any contribution of the name
is one.  So it makes no difference how the steps are grouped.
-/
import Mathlib.Data.List.Induction
import FilterSql.Proofs.Filter.Assembly

namespace FilterSql

namespace Join

/-- A join with another one of its name; a left join if the other is. -/
def absorb (join other : Join) : Join :=
  if other.kind = .left then join.outer else join

section Absorb

variable (join first second : Join)

@[simp] theorem asName_absorb : (join.absorb first).asName = join.asName := by
  rw [absorb]
  split <;> rfl

@[simp] theorem table_absorb : (join.absorb first).table = join.table := by
  rw [absorb]
  split <;> rfl

@[simp] theorem on_absorb : (join.absorb first).on = join.on := by
  rw [absorb]
  split <;> rfl

theorem kind_absorb :
    (join.absorb first).kind = if first.kind = .left then .left else join.kind := by
  rw [absorb]
  split <;> rfl

theorem absorb_absorb : (join.absorb first).absorb second = join.absorb (first.absorb second) := by
  by_cases hfirst : first.kind = .left <;> by_cases hsecond : second.kind = .left <;>
    simp [absorb, outer, hfirst, hsecond]

theorem absorb_right_comm :
    (join.absorb first).absorb second = (join.absorb second).absorb first := by
  by_cases hfirst : first.kind = .left <;> by_cases hsecond : second.kind = .left <;>
    simp [absorb, outer, hfirst, hsecond]

end Absorb

@[simp] theorem table_foldl_absorb (join : Join) (others : List Join) :
    (others.foldl absorb join).table = join.table := by
  induction others generalizing join with
  | nil => rfl
  | cons other others ih => rw [List.foldl_cons, ih, table_absorb]

@[simp] theorem on_foldl_absorb (join : Join) (others : List Join) :
    (others.foldl absorb join).on = join.on := by
  induction others generalizing join with
  | nil => rfl
  | cons other others ih => rw [List.foldl_cons, ih, on_absorb]

/-- A join that absorbs others is a left join if one of them is. -/
theorem kind_foldl_absorb (join : Join) (others : List Join) :
    (others.foldl absorb join).kind =
      if ∃ other ∈ join :: others, other.kind = .left then .left else join.kind := by
  induction others generalizing join with
  | nil => by_cases hjoin : join.kind = .left <;> simp [hjoin]
  | cons other others ih =>
      rw [List.foldl_cons, ih]
      simp only [List.exists_mem_cons_iff, kind_absorb]
      by_cases hother : other.kind = .left <;> by_cases hjoin : join.kind = .left <;>
        simp [hother, hjoin]

section Insert

variable {join other second : Join} {others : List Join}

theorem insertInto_cons_of_eq (hname : other.asName = join.asName) :
    join.insertInto (other :: others) = other.absorb join :: others := by
  rw [insertInto, if_pos hname]
  rfl

theorem insertInto_cons_of_ne (hname : other.asName ≠ join.asName) :
    join.insertInto (other :: others) = other :: join.insertInto others := by
  rw [insertInto, if_neg hname]

theorem mem_map_asName_insertInto {name : String} :
    name ∈ (join.insertInto others).map asName ↔ name ∈ others.map asName ∨ name = join.asName := by
  by_cases hold : join.asName ∈ others.map asName
  · rw [map_asName_insertInto_of_mem hold, iff_self_or]
    rintro rfl
    exact hold
  · rw [insertInto_of_notMem hold, List.map_append, List.mem_append, List.map_singleton,
      List.mem_singleton]

/-- Joins of other names are not looked at. -/
theorem filter_insertInto (name : String) :
    (join.insertInto others).filter (·.asName = name) =
      if join.asName = name then join.insertInto (others.filter (·.asName = name))
      else others.filter (·.asName = name) := by
  induction others with
  | nil => by_cases hname : join.asName = name <;> simp [insertInto, hname]
  | cons other others ih =>
      by_cases hsame : other.asName = join.asName
      · rw [insertInto_cons_of_eq hsame]
        by_cases hname : join.asName = name <;> simp [hsame, hname, insertInto_cons_of_eq]
      · rw [insertInto_cons_of_ne hsame]
        by_cases hother : other.asName = name
        · have hname : join.asName ≠ name := fun h => hsame (hother.trans h.symm)
          simp [hother, hname, ih]
        · simp [hother, ih]

/-- A second join of a name counts by its kind alone. -/
theorem insertInto_insertInto_of_eq (hname : other.asName = join.asName) :
    join.insertInto (other.insertInto others) = (other.absorb join).insertInto others := by
  induction others with
  | nil => exact insertInto_cons_of_eq hname
  | cons head others ih =>
      by_cases hhead : head.asName = other.asName
      · have hjoin : (head.absorb other).asName = join.asName := by
          rw [asName_absorb, hhead, hname]
        rw [insertInto_cons_of_eq hhead, insertInto_cons_of_eq hjoin, absorb_absorb,
          insertInto_cons_of_eq (by rwa [asName_absorb])]
      · have hjoin : head.asName ≠ join.asName := hname ▸ hhead
        rw [insertInto_cons_of_ne hhead, insertInto_cons_of_ne hjoin, ih,
          insertInto_cons_of_ne (by rwa [asName_absorb])]

/-- A join whose name is there may be added before another one or after it. -/
theorem insertInto_comm_of_mem (hold : join.asName ∈ others.map asName) :
    join.insertInto (second.insertInto others) = second.insertInto (join.insertInto others) := by
  induction others with
  | nil => cases hold
  | cons other others ih =>
      by_cases hjoin : other.asName = join.asName <;>
        by_cases hsecond : other.asName = second.asName
      · rw [insertInto_cons_of_eq hsecond, insertInto_cons_of_eq hjoin,
          insertInto_cons_of_eq (by rwa [asName_absorb]),
          insertInto_cons_of_eq (by rwa [asName_absorb]), absorb_right_comm]
      · rw [insertInto_cons_of_ne hsecond, insertInto_cons_of_eq hjoin,
          insertInto_cons_of_eq hjoin, insertInto_cons_of_ne (by rwa [asName_absorb])]
      · rw [insertInto_cons_of_eq hsecond, insertInto_cons_of_ne hjoin,
          insertInto_cons_of_eq hsecond, insertInto_cons_of_ne (by rwa [asName_absorb])]
      · have hrest : join.asName ∈ others.map asName :=
          (List.mem_cons.mp hold).resolve_left (Ne.symm hjoin)
        rw [insertInto_cons_of_ne hsecond, insertInto_cons_of_ne hjoin,
          insertInto_cons_of_ne hjoin, insertInto_cons_of_ne hsecond, ih hrest]

end Insert

/-- Joins added to others, one after another. -/
def mergedInto (others added : List Join) : List Join :=
  added.foldl (fun others join => join.insertInto others) others

/-- Joins one after another, each name once. -/
def merged (joins : List Join) : List Join :=
  mergedInto [] joins

section Merge

theorem mergedInto_cons (others : List Join) (join : Join) (added : List Join) :
    mergedInto others (join :: added) = mergedInto (join.insertInto others) added := rfl

theorem mergedInto_append (others first second : List Join) :
    mergedInto others (first ++ second) = mergedInto (mergedInto others first) second :=
  List.foldl_append

theorem mergedInto_concat (others added : List Join) (join : Join) :
    mergedInto others (added ++ [join]) = join.insertInto (mergedInto others added) :=
  mergedInto_append others added [join]

theorem merged_concat (joins : List Join) (join : Join) :
    merged (joins ++ [join]) = join.insertInto (merged joins) :=
  mergedInto_concat [] joins join

theorem insertInto_mergedInto_of_mem {join : Join} {others : List Join}
    (hold : join.asName ∈ others.map asName) (added : List Join) :
    join.insertInto (mergedInto others added) = mergedInto (join.insertInto others) added := by
  induction added generalizing others with
  | nil => rfl
  | cons second added ih =>
      rw [mergedInto_cons, mergedInto_cons, ih (mem_map_asName_insertInto.mpr (Or.inl hold)),
        insertInto_comm_of_mem hold]

theorem mergedInto_insertInto (others added : List Join) (join : Join) :
    mergedInto others (join.insertInto added) = join.insertInto (mergedInto others added) := by
  induction added generalizing others with
  | nil => rfl
  | cons other added ih =>
      by_cases hname : other.asName = join.asName
      -- Once the name is there, the join may be added at any later time.
      · have hold : join.asName ∈ (other.insertInto others).map asName :=
          mem_map_asName_insertInto.mpr (Or.inr hname.symm)
        rw [insertInto_cons_of_eq hname, mergedInto_cons, mergedInto_cons,
          insertInto_mergedInto_of_mem hold, insertInto_insertInto_of_eq hname]
      · rw [insertInto_cons_of_ne hname, mergedInto_cons, mergedInto_cons, ih]

/-- Joins may be merged before they are added. -/
theorem mergedInto_merged (others added : List Join) :
    mergedInto others (merged added) = mergedInto others added := by
  induction added using List.reverseRecOn with
  | nil => rfl
  | append_singleton added join ih =>
      rw [merged_concat, mergedInto_insertInto, ih, mergedInto_concat]

theorem merged_append (first second : List Join) :
    mergedInto (merged first) (merged second) = merged (first ++ second) := by
  rw [mergedInto_merged, merged, merged, mergedInto_append]

theorem map_outer_merged (joins : List Join) :
    (merged joins).map outer = merged (joins.map outer) := by
  induction joins using List.reverseRecOn with
  | nil => rfl
  | append_singleton joins join ih =>
      rw [merged_concat, map_outer_insertInto, ih, List.map_append, List.map_singleton,
        merged_concat]

theorem nodup_asName_merged (joins : List Join) : ((merged joins).map asName).Nodup := by
  induction joins using List.reverseRecOn with
  | nil => exact List.nodup_nil
  | append_singleton joins join ih =>
      rw [merged_concat]
      exact nodup_asName_insertInto join ih

theorem eraseDups_concat (names : List String) (name : String) :
    (names ++ [name]).eraseDups =
      if name ∈ names then names.eraseDups else names.eraseDups ++ [name] := by
  rw [List.eraseDups_append, List.removeAll, List.filter_singleton]
  by_cases hold : name ∈ names <;> simp [hold, List.eraseDups_cons]

/-- The names are those of the joins, each where it comes first. -/
theorem map_asName_merged (joins : List Join) :
    (merged joins).map asName = (joins.map asName).eraseDups := by
  induction joins using List.reverseRecOn with
  | nil => rfl
  | append_singleton joins join ih =>
      have hmem : join.asName ∈ (merged joins).map asName ↔ join.asName ∈ joins.map asName := by
        rw [ih, List.mem_eraseDups]
      rw [merged_concat, List.map_append, List.map_singleton, eraseDups_concat, ← ih]
      by_cases hold : join.asName ∈ (merged joins).map asName
      · rw [map_asName_insertInto_of_mem hold, if_pos (hmem.mp hold)]
      · rw [insertInto_of_notMem hold, if_neg fun h => hold (hmem.mpr h), List.map_append,
          List.map_singleton]

theorem filter_merged (name : String) (joins : List Join) :
    (merged joins).filter (·.asName = name) = merged (joins.filter (·.asName = name)) := by
  induction joins using List.reverseRecOn with
  | nil => rfl
  | append_singleton joins join ih =>
      rw [merged_concat, filter_insertInto, List.filter_append, ih]
      by_cases hname : join.asName = name
      · simp [hname, merged_concat]
      · simp [hname]

/-- Joins of one name are one join, the first, which absorbs the others. -/
theorem merged_of_same {join : Join} {others : List Join}
    (hnames : ∀ other ∈ others, other.asName = join.asName) :
    merged (join :: others) = [others.foldl absorb join] := by
  induction others generalizing join with
  | nil => rfl
  | cons other others ih =>
      rw [List.forall_mem_cons] at hnames
      have hfirst : merged (join :: other :: others) = merged (join.absorb other :: others) :=
        congrArg (mergedInto · others) (insertInto_cons_of_eq hnames.1.symm)
      rw [hfirst, List.foldl_cons]
      exact ih (by simpa using hnames.2)

end Merge

/-- What is kept of the joins that are contributed under a name: the first one, as a left join if
one of them is. -/
def IsKeptOf (contributed : List Join) (join : Join) : Prop :=
  ∃ first, contributed.find? (·.asName = join.asName) = some first ∧
    join.table = first.table ∧ join.on = first.on ∧
    join.kind =
      if ∃ other ∈ contributed, other.asName = join.asName ∧ other.kind = .left then .left
      else first.kind

theorem isKeptOf_of_mem_merged {joins : List Join} {join : Join} (hjoin : join ∈ merged joins) :
    join.IsKeptOf joins := by
  -- The joins of the name, taken by themselves, are merged into this one.
  have hkept : join ∈ merged (joins.filter (·.asName = join.asName)) := by
    rw [← filter_merged]
    exact List.mem_filter.mpr ⟨hjoin, by simp⟩
  cases hsame : joins.filter (·.asName = join.asName) with
  | nil =>
      rw [hsame] at hkept
      cases hkept
  | cons first others =>
      have hmem : ∀ other,
          other ∈ first :: others ↔ other ∈ joins ∧ other.asName = join.asName := by
        intro other
        rw [← hsame, List.mem_filter, decide_eq_true_iff]
      have hfirst := ((hmem first).mp List.mem_cons_self).2
      have hothers : ∀ other ∈ others, other.asName = first.asName := fun other hother =>
        ((hmem other).mp (List.mem_cons_of_mem first hother)).2.trans hfirst.symm
      rw [hsame, merged_of_same hothers, List.mem_singleton] at hkept
      have hkind := (congrArg kind hkept).trans (kind_foldl_absorb first others)
      simp only [hmem, and_assoc] at hkind
      refine ⟨first, ?_, ?_, ?_, hkind⟩
      · rw [← List.head?_filter, hsame, List.head?_cons]
      · exact (congrArg table hkept).trans (table_foldl_absorb first others)
      · exact (congrArg on hkept).trans (on_foldl_absorb first others)

end Join

namespace Predicate

/-- Predicates that are built step by step, with the joins that the steps contribute from left to
right.  Where joins are made left joins, the contributions are. -/
inductive BuiltWith : List Join → Predicate → Prop
  | none : BuiltWith [] .none
  | ofExpr (condition : Expr) : BuiltWith [] (.ofExpr condition)
  | ofOption (condition : Option Expr) : BuiltWith [] (.ofOption condition)
  | withJoin {contributed : List Join} {predicate : Predicate}
      (h : BuiltWith contributed predicate) (join : Join) :
      BuiltWith (contributed ++ [join]) (predicate.withJoin join)
  | and {first second : List Join} {left right : Predicate} (hleft : BuiltWith first left)
      (hright : BuiltWith second right) : BuiltWith (first ++ second) (left.and right)
  | or {first second : List Join} {left right : Predicate} (hleft : BuiltWith first left)
      (hright : BuiltWith second right) : BuiltWith (first ++ second) (left.or right)
  | all {parts : List (List Join × Predicate)} (hparts : ∀ part ∈ parts, BuiltWith part.1 part.2) :
      BuiltWith (parts.flatMap Prod.fst) (Predicate.all (parts.map Prod.snd))
  | any {parts : List (List Join × Predicate)} (hparts : ∀ part ∈ parts, BuiltWith part.1 part.2) :
      BuiltWith (parts.flatMap Prod.fst) (Predicate.any (parts.map Prod.snd))
  | outerJoins {contributed : List Join} {predicate : Predicate}
      (h : BuiltWith contributed predicate) :
      BuiltWith (contributed.map Join.outer) predicate.outerJoins

theorem joins_combine (op : Expr → Expr → Expr) (left right : Predicate) :
    (combine op left right).joins = Join.mergedInto left.joins right.joins := rfl

theorem joins_foldl_combine (op : Expr → Expr → Expr) {parts : List (List Join × Predicate)}
    (hparts : ∀ part ∈ parts, part.2.joins = Join.merged part.1) {contributed : List Join}
    {start : Predicate} (hstart : start.joins = Join.merged contributed) :
    ((parts.map Prod.snd).foldl (combine op) start).joins =
      Join.merged (contributed ++ parts.flatMap Prod.fst) := by
  induction parts generalizing contributed start with
  | nil => rw [List.map_nil, List.foldl_nil, hstart, List.flatMap_nil, List.append_nil]
  | cons part parts ih =>
      rw [List.forall_mem_cons] at hparts
      have hfirst : (combine op start part.2).joins = Join.merged (contributed ++ part.1) := by
        rw [joins_combine, hstart, hparts.1, Join.merged_append]
      rw [List.map_cons, List.foldl_cons, ih hparts.2 hfirst, List.flatMap_cons, List.append_assoc]

/-- The joins depend on the contributions alone. -/
theorem BuiltWith.joins_eq_merged {contributed : List Join} {predicate : Predicate}
    (h : BuiltWith contributed predicate) : predicate.joins = Join.merged contributed := by
  induction h with
  | none | ofExpr | ofOption => rfl
  | withJoin _ join ih => rw [Join.merged_concat, ← ih]; rfl
  | and _ _ ihleft ihright =>
      rw [Predicate.and, joins_combine, ihleft, ihright, Join.merged_append]
  | or _ _ ihleft ihright =>
      rw [Predicate.or, joins_combine, ihleft, ihright, Join.merged_append]
  | all _ ih => exact @joins_foldl_combine Expr.and _ ih [] .none rfl
  | any _ ih => exact @joins_foldl_combine Expr.or _ ih [] .none rfl
  | outerJoins _ ih => rw [Predicate.outerJoins, ih, Join.map_outer_merged]

/-- Each name is joined once, the names stand as they were contributed first, and under a name
the first join that was contributed is kept, as a left join if one of them was.  However else the
contributions are put together, the joins are the same. -/
theorem BuiltWith.joins_spec {contributed : List Join} {predicate : Predicate}
    (h : BuiltWith contributed predicate) :
    (predicate.joins.map Join.asName).Nodup ∧
      predicate.joins.map Join.asName = (contributed.map Join.asName).eraseDups ∧
      (∀ join ∈ predicate.joins, join.IsKeptOf contributed) ∧
      ∀ other, BuiltWith contributed other → other.joins = predicate.joins := by
  have hjoins := h.joins_eq_merged
  rw [hjoins]
  exact ⟨Join.nodup_asName_merged contributed, Join.map_asName_merged contributed,
    fun _ => Join.isKeptOf_of_mem_merged, fun _ hother => hother.joins_eq_merged⟩

end Predicate

namespace JoinMerging

open Predicate (BuiltWith)

/-- A table that is joined under a name. -/
def joinAs (kind : JoinKind) (table asName : String) : Join :=
  ⟨kind, table, asName, .column ⟨some asName, "id"⟩⟩

/-- A left join of another table comes last under a name that is taken. -/
def contributed : List Join :=
  [joinAs .inner "companies" "owner", joinAs .inner "teams" "team", joinAs .left "people" "owner"]

/-- One step after another, or the last two steps first. -/
theorem joins_grouped :
    ∃ one other : Predicate, BuiltWith contributed one ∧ BuiltWith contributed other ∧
      one.joins = other.joins ∧
      one.joins = [joinAs .left "companies" "owner", joinAs .inner "teams" "team"] := by
  let part (join : Join) : Predicate := Predicate.none.withJoin join
  have hpart (join : Join) : BuiltWith [join] (part join) := BuiltWith.none.withJoin join
  have hone := ((hpart (joinAs .inner "companies" "owner")).or
    (hpart (joinAs .inner "teams" "team"))).withJoin (joinAs .left "people" "owner")
  have hother := (hpart (joinAs .inner "companies" "owner")).and
    ((hpart (joinAs .inner "teams" "team")).or (hpart (joinAs .left "people" "owner")))
  exact ⟨_, _, hone, hother, hother.joins_spec.2.2.2 _ hone, rfl⟩

end JoinMerging

end FilterSql

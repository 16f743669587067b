/-
What filter values mean for a row.

A value is read as an expression by the grammar, or stands for itself where it is none.  Its
meaning is the truth value of the expression, AND and OR being those of Kleene, over what
its plain values mean; what makes no condition is left out, and where nothing is left there
is no meaning.  The conditions that filters are turned into have this meaning.
-/
import Mathlib.Data.List.Perm.Basic
import Mathlib.Data.List.ReduceOption
import FilterSql.Proofs.Filter.Grammar
import FilterSql.Proofs.Filter.RepeatedValues
import FilterSql.Proofs.Filter.Search

namespace FilterSql

namespace Truth

theorem or_assoc (first second third : Truth) :
    (first.or second).or third = first.or (second.or third) := by
  cases first <;> cases second <;> cases third <;> rfl

theorem and_assoc (first second third : Truth) :
    (first.and second).and third = first.and (second.and third) := by
  cases first <;> cases second <;> cases third <;> rfl

theorem or_comm (first second : Truth) : first.or second = second.or first := by
  cases first <;> cases second <;> rfl

instance : Std.Associative or := ⟨or_assoc⟩

instance : Std.Commutative or := ⟨or_comm⟩

/-- All of several. -/
def all (truths : List Truth) : Truth :=
  truths.foldr and yes

/-- One of those that are known; none when nothing is. -/
def any? (truths : List (Option Truth)) : Option Truth :=
  match truths.reduceOption with
  | [] => none
  | known => some (any known)

/-- One of two, where both are known, else the one that is. -/
abbrev or? : Option Truth → Option Truth → Option Truth :=
  Option.merge or

/-- Both of two, where both are known, else the one that is. -/
abbrev and? : Option Truth → Option Truth → Option Truth :=
  Option.merge and

@[simp] theorem or_no (truth : Truth) : truth.or no = truth := by
  cases truth <;> rfl

@[simp] theorem and_yes (truth : Truth) : truth.and yes = truth := by
  cases truth <;> rfl

@[simp] theorem yes_and (truth : Truth) : yes.and truth = truth := by
  cases truth <;> rfl

theorem or?_assoc (first second third : Option Truth) :
    or? (or? first second) third = or? first (or? second third) :=
  Std.Associative.assoc first second third

theorem any?_cons (truth : Option Truth) (truths : List (Option Truth)) :
    any? (truth :: truths) = or? truth (any? truths) := by
  cases truth with
  | none => simp [any?, List.reduceOption_cons_of_none]
  | some truth =>
      cases hknown : truths.reduceOption <;>
        simp [any?, List.reduceOption_cons_of_some, hknown, any]

theorem all_reduceOption_cons (truth : Option Truth) (truths : List (Option Truth)) :
    all (truth :: truths).reduceOption = (truth.getD yes).and (all truths.reduceOption) := by
  cases truth with
  | none => simp [List.reduceOption_cons_of_none]
  | some truth => simp [List.reduceOption_cons_of_some, all]

theorem any?_eq_foldr (truths : List (Option Truth)) : any? truths = truths.foldr or? none := by
  induction truths with
  | nil => rfl
  | cons truth truths ih => rw [any?_cons, ih, List.foldr_cons]

/-- The order makes no difference. -/
theorem any?_perm {truths others : List (Option Truth)} (hperm : truths.Perm others) :
    any? truths = any? others := by
  rw [any?_eq_foldr, any?_eq_foldr]
  exact hperm.foldr_op_eq

theorem foldl_or? (start : Option Truth) (truths : List (Option Truth)) :
    truths.foldl or? start = or? start (any? truths) := by
  induction truths generalizing start with
  | nil => simp [any?, List.reduceOption_nil]
  | cons truth truths ih => rw [List.foldl_cons, ih, any?_cons, or?_assoc]

end Truth

namespace Predicate

variable (engine : Engine) (read : ColumnName → Value)

/-- The truth value of the condition, none without one. -/
def truth? (predicate : Predicate) : Option Truth :=
  predicate.condition.map (Expr.truth engine read)

variable {engine read}

@[simp] theorem truth?_none : none.truth? engine read = .none := rfl

@[simp] theorem truth?_outerJoins (predicate : Predicate) :
    predicate.outerJoins.truth? engine read = predicate.truth? engine read := rfl

@[simp] theorem truth?_or (left right : Predicate) :
    (left.or right).truth? engine read =
      Truth.or? (left.truth? engine read) (right.truth? engine read) := by
  rcases left with ⟨_ | left, leftJoins⟩ <;> rcases right with ⟨_ | right, rightJoins⟩ <;> rfl

@[simp] theorem truth?_and (left right : Predicate) :
    (left.and right).truth? engine read =
      Truth.and? (left.truth? engine read) (right.truth? engine read) := by
  rcases left with ⟨_ | left, leftJoins⟩ <;> rcases right with ⟨_ | right, rightJoins⟩ <;> rfl

theorem truth?_any (predicates : List Predicate) :
    (any predicates).truth? engine read =
      Truth.any? (predicates.map (truth? engine read)) := by
  have hfold : ∀ start : Predicate, (predicates.foldl or start).truth? engine read =
      (predicates.map (truth? engine read)).foldl Truth.or? (start.truth? engine read) := by
    induction predicates with
    | nil => intro start; rfl
    | cons predicate predicates ih =>
        intro start
        rw [List.foldl_cons, ih, truth?_or, List.map_cons, List.foldl_cons]
  rw [any, hfold, Truth.foldl_or?, truth?_none]
  simp

/-- All of several predicates, where having none at all is true. -/
theorem truth?_all (predicates : List Predicate) :
    ((all predicates).truth? engine read).getD .yes =
      Truth.all (predicates.map (truth? engine read)).reduceOption := by
  have hand : ∀ left right : Option Truth,
      (Truth.and? left right).getD .yes = (left.getD .yes).and (right.getD .yes) := by
    rintro (_ | left) (_ | right) <;> simp
  have hfold : ∀ start : Predicate,
      ((predicates.foldl and start).truth? engine read).getD .yes =
        ((start.truth? engine read).getD .yes).and
          (Truth.all (predicates.map (truth? engine read)).reduceOption) := by
    induction predicates with
    | nil => intro start; simp [Truth.all, List.reduceOption_nil]
    | cons predicate predicates ih =>
        intro start
        rw [List.foldl_cons, ih, truth?_and, hand, List.map_cons, Truth.all_reduceOption_cons,
          Truth.and_assoc]
  rw [all, hfold, truth?_none]
  simp

end Predicate

namespace Tree

/-- The expressions that a filter value may be read as: those of the grammar, and for a value
that holds no operator and no parenthesis the value alone. -/
inductive ReadFrom (raw : String) : Tree → Prop
  | plain (hplain : isComposite raw = false) : ReadFrom raw (.leaf raw)
  | phrase {read : List Token} {tree : Tree} (hcomposite : isComposite raw = true)
      (hread : tokens raw = .ok read) (hphrase : Phrase .or (read.map Token.kind) tree) :
      ReadFrom raw tree

/-- An expression is read from a value when it is its only reading by the grammar. -/
theorem readFrom_iff_ofText {raw : String} (hcomposite : isComposite raw = true) {tree : Tree} :
    tree.ReadFrom raw ↔ ofText raw = .ok tree := by
  rw [ofText, bind_eq_ok]
  constructor
  · intro hread
    cases hread with
    | plain hplain =>
        rw [hcomposite] at hplain
        cases hplain
    | phrase _ hread hphrase => exact ⟨_, hread, ofTokens_of_phrase hphrase⟩
  · rintro ⟨read, hread, htree⟩
    exact .phrase hcomposite hread (phrase_of_ofTokens htree)

theorem readFrom_iff_eq_leaf {raw : String} (hplain : isComposite raw = false) {tree : Tree} :
    tree.ReadFrom raw ↔ tree = .leaf raw := by
  constructor
  · intro hread
    cases hread with
    | plain => rfl
    | phrase hcomposite =>
        rw [hcomposite] at hplain
        cases hplain
  · rintro rfl
    exact .plain hplain

/-- The meaning of an expression over plain values; those that mean nothing are left out. -/
def meaning? (leaf : String → Option Truth) : Tree → Option Truth
  | .leaf value => leaf value
  | .and left right => Truth.and? (left.meaning? leaf) (right.meaning? leaf)
  | .or left right => Truth.or? (left.meaning? leaf) (right.meaning? leaf)

end Tree

/-- What is read as an expression asks for no absent values. -/
theorem isAsked_of_isComposite {raw : String} (hcomposite : isComposite raw = true) :
    NullCheck.isAsked raw = false := by
  have hpair : ∀ c, holdsPair c raw.toList = true → c ∈ raw.toList := by
    intro c hholds
    by_contra habsent
    rw [holdsPair_eq_false habsent] at hholds
    cases hholds
  simp only [isComposite, Bool.or_eq_true, List.contains_iff_mem] at hcomposite
  rcases hcomposite with ((hand | hor) | hopen) | hclose
  · exact NullCheck.isAsked_eq_false (by decide) (hpair '&' hand)
  · exact NullCheck.isAsked_eq_false (by decide) (hpair '|' hor)
  · exact NullCheck.isAsked_eq_false (by decide) hopen
  · exact NullCheck.isAsked_eq_false (by decide) hclose

namespace Field

variable (engine : Engine) (read : ColumnName → Value) (scope : Scope) (field : Field)

/-- What a plain value means for a field, none where it makes no condition. -/
def plainMeaning? (value : String) : Option Truth :=
  (field.valuePredicate scope value).truth? engine read

/-- What a filter value means for a field; it means nothing at all where it cannot be read. -/
def Means (raw : String) (meaning : Option Truth) : Prop :=
  ∃ tree : Tree, tree.ReadFrom raw ∧ tree.meaning? (field.plainMeaning? engine read scope) = meaning

variable {engine read scope field}

theorem truth?_treePredicate (tree : Tree) :
    (field.treePredicate scope tree).truth? engine read =
      tree.meaning? (field.plainMeaning? engine read scope) := by
  induction tree with
  | leaf value => rfl
  | and left right ihleft ihright | or left right ihleft ihright =>
      simp [treePredicate, Tree.meaning?, ihleft, ihright]

/-- The predicate of a filter value is there exactly when the value can be read, and has its
meaning. -/
theorem means_iff_filterPredicate {raw : String} {meaning : Option Truth} :
    field.Means engine read scope raw meaning ↔
      ∃ predicate, field.filterPredicate scope raw = .ok predicate ∧
        predicate.truth? engine read = meaning := by
  rw [Means]
  cases hcomposite : isComposite raw with
  | false =>
      simp [filterPredicate, hcomposite, Tree.readFrom_iff_eq_leaf hcomposite, Tree.meaning?,
        plainMeaning?]
  | true =>
      simp only [Tree.readFrom_iff_ofText hcomposite, ← truth?_treePredicate, filterPredicate,
        hcomposite, isAsked_of_isComposite hcomposite, Bool.not_true, Bool.or_false,
        Bool.false_eq_true, if_false]
      cases Tree.ofText raw with
      | error reason => simp [bind, Except.bind]
      | ok tree =>
          -- Left joins or not, the condition is the same.
          simp only [bind, Except.bind]
          split <;> simp [pure, Except.pure]

end Field

end FilterSql

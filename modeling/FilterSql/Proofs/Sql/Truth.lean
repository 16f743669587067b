/-
What conditions mean.

A condition is true, false or unknown of the values that its columns have.  A comparison
with an absent value is unknown, and AND, OR and NOT follow the tables of Kleene.  How
values that are there are compared is left to the database.
-/
import FilterSql.Proofs.Sql.Nodes

namespace FilterSql

/-- The three truth values of a condition. -/
inductive Truth
  | no
  | unknown
  | yes
deriving DecidableEq, Repr

namespace Truth

/-- The truth value of a decided question. -/
def ofBool : Bool → Truth
  | true => yes
  | false => no

/-- True when both are, false when one is. -/
def and : Truth → Truth → Truth
  | no, _ => no
  | _, no => no
  | yes, yes => yes
  | _, _ => unknown

/-- True when one is, false when both are. -/
def or : Truth → Truth → Truth
  | yes, _ => yes
  | _, yes => yes
  | no, no => no
  | _, _ => unknown

/-- True of false and false of true. -/
def not : Truth → Truth
  | no => yes
  | unknown => unknown
  | yes => no

/-- One of several. -/
def any (truths : List Truth) : Truth :=
  truths.foldr or no

/-- A truth value, or its negation. -/
def negatedIf (negated : Bool) (truth : Truth) : Truth :=
  if negated then truth.not else truth

@[simp] theorem or_eq_yes {left right : Truth} : left.or right = yes ↔ left = yes ∨ right = yes := by
  cases left <;> cases right <;> decide

theorem ofBool_eq_yes {b : Bool} : ofBool b = .yes ↔ b = true := by
  cases b <;> decide

theorem ofBool_inj {b other : Bool} : ofBool b = .ofBool other ↔ b = other := by
  cases b <;> cases other <;> decide

theorem negatedIf_ofBool (negated b : Bool) :
    negatedIf negated (.ofBool b) = .ofBool (b != negated) := by
  cases negated <;> cases b <;> rfl

theorem and_ofBool (left right : Bool) :
    (ofBool left).and (.ofBool right) = .ofBool (left && right) := by
  cases left <;> cases right <;> rfl

end Truth

/-- Whether a value is absent. -/
def Value.isNull : Value → Bool
  | .null => true
  | _ => false

/-- What a database does with values that are there. -/
structure Engine where
  eq : Value → Value → Bool
  lt : Value → Value → Bool
  /-- Whether a text matches a pattern. -/
  like : Value → Value → Bool
  lower : Value → Value
  text : Value → Value
  part : DatePart → Value → Value

namespace Engine

variable (engine : Engine)

/-- An operator between two values that are there. -/
def holds : BinaryOp → Value → Value → Bool
  | .eq, left, right => engine.eq left right
  | .notEq, left, right => !engine.eq left right
  | .lt, left, right => engine.lt left right
  | .ltEq, left, right => engine.lt left right || engine.eq left right
  | .gt, left, right => engine.lt right left
  | .gtEq, left, right => engine.lt right left || engine.eq left right
  | .like, left, right => engine.like left right
  | .and, _, _ => false
  | .or, _, _ => false

/-- An operator between two values, unknown when one of them is absent. -/
def compare (op : BinaryOp) (left right : Value) : Truth :=
  if left.isNull || right.isNull then .unknown else .ofBool (engine.holds op left right)

end Engine

/-- Whether a text matches a pattern: `%` stands for any characters, `_` for one, and a
character after a backslash for itself. -/
def matchesPattern : List Char → List Char → Bool
  | [], text => text.isEmpty
  | '%' :: pattern, text =>
      (List.range (text.length + 1)).any fun count => matchesPattern pattern (text.drop count)
  | '_' :: pattern, _ :: text => matchesPattern pattern text
  | '\\' :: c :: pattern, d :: text => c == d && matchesPattern pattern text
  | c :: pattern, d :: text => c == d && matchesPattern pattern text
  | _ :: _, [] => false

/-- A database as far as integers, texts and dates are concerned. -/
def Engine.plain : Engine where
  eq
    | .int m, .int n => m == n
    | .string s, .string t => s == t
    | .date first, .date second => first == second
    | _, _ => false
  lt
    | .int m, .int n => m < n
    | .string s, .string t => s < t
    | .date first, .date second => first.dayNumber < second.dayNumber
    | _, _ => false
  like
    | .string text, .string pattern => matchesPattern pattern.toList text.toList
    | _, _ => false
  lower
    | .string s => .string (Text.lowered s)
    | value => value
  text value := (value.toText?).elim .null .string
  part
    | .year, .date date => .int (Int64.ofInt date.year)
    | .month, .date date => .int (Int64.ofInt date.month)
    | .day, .date date => .int (Int64.ofInt date.day)
    | _, _ => .null

/-- A function of a value that leaves the absent value as it is. -/
def Value.mapPresent (f : Value → Value) (value : Value) : Value :=
  if value.isNull then .null else f value

namespace Expr

variable (engine : Engine) (read : ColumnName → Value)

/-- The value of an expression that is no condition. -/
def scalar : Expr → Value
  | column name => read name
  | value v => v
  | call function [argument] =>
      if function = "LOWER" then (argument.scalar).mapPresent engine.lower else .null
  | castText expr => (expr.scalar).mapPresent engine.text
  | datePart part expr => (expr.scalar).mapPresent (engine.part part)
  | _ => .null

/-- The truth value of a condition. -/
def truth : Expr → Truth
  | binary op left right =>
      match op with
      | .and => left.truth.and right.truth
      | .or => left.truth.or right.truth
      | op => engine.compare op (left.scalar engine read) (right.scalar engine read)
  | inList expr items negated =>
      .negatedIf negated (.any (items.map fun item =>
        engine.compare .eq (expr.scalar engine read) (item.scalar engine read)))
  | between expr low high negated =>
      .negatedIf negated
        ((engine.compare .gtEq (expr.scalar engine read) (low.scalar engine read)).and
          (engine.compare .ltEq (expr.scalar engine read) (high.scalar engine read)))
  | isNull expr negated => .ofBool ((expr.scalar engine read).isNull != negated)
  | _ => .unknown

variable {engine read}

/-- Two readings agree on a node when they agree on the column that it is. -/
def ReadsAlike (first second : ColumnName → Value) : Expr → Prop
  | column name => first name = second name
  | _ => True

theorem scalar_congr {other : ColumnName → Value} {expr : Expr}
    (hexpr : expr.Every (ReadsAlike read other)) :
    expr.scalar engine read = expr.scalar engine other := by
  induction expr with
  | column name => simpa [scalar, ReadsAlike] using hexpr
  | call function arguments ih =>
      rw [every_call] at hexpr
      cases arguments with
      | nil => rfl
      | cons argument rest =>
          cases rest with
          | nil =>
              have hargument := ih argument List.mem_cons_self
                (hexpr.2 argument List.mem_cons_self)
              simp [scalar, hargument]
          | cons _ _ => rfl
  | castText expr ih =>
      rw [every_castText] at hexpr
      simp [scalar, ih hexpr.2]
  | datePart part expr ih =>
      rw [every_datePart] at hexpr
      simp [scalar, ih hexpr.2]
  | star | value | binary | callStar | named | inList | between | isNull => rfl

/-- What a condition means depends on the columns that it mentions alone. -/
theorem truth_congr {other : ColumnName → Value} {expr : Expr}
    (hexpr : expr.Every (ReadsAlike read other)) :
    expr.truth engine read = expr.truth engine other := by
  induction expr with
  | binary op left right ihleft ihright =>
      rw [every_binary] at hexpr
      obtain ⟨-, hleft, hright⟩ := hexpr
      have hscalars : left.scalar engine read = left.scalar engine other ∧
          right.scalar engine read = right.scalar engine other :=
        ⟨scalar_congr hleft, scalar_congr hright⟩
      cases op <;> simp [truth, ihleft hleft, ihright hright, hscalars]
  | inList expr items negated =>
      rw [every_inList] at hexpr
      have hitems : items.map (fun item =>
          engine.compare .eq (expr.scalar engine read) (item.scalar engine read)) =
          items.map fun item =>
            engine.compare .eq (expr.scalar engine other) (item.scalar engine other) := by
        apply List.map_congr_left
        intro item hitem
        rw [scalar_congr hexpr.2.1, scalar_congr (hexpr.2.2 item hitem)]
      rw [truth, truth, hitems]
  | between expr low high negated =>
      rw [every_between] at hexpr
      obtain ⟨-, hexpr, hlow, hhigh⟩ := hexpr
      rw [truth, truth, scalar_congr hexpr, scalar_congr hlow, scalar_congr hhigh]
  | isNull expr negated =>
      rw [every_isNull] at hexpr
      rw [truth, truth, scalar_congr hexpr.2]
  | column | star | value | call | callStar | named | castText | datePart => rfl

@[simp] theorem truth_or (left right : Expr) :
    (left.or right).truth engine read =
      (left.truth engine read).or (right.truth engine read) := rfl

end Expr

end FilterSql

/-
The longest operator at the front of a filter value.

Several symbols can stand at the front of one value.  None of them goes on with a symbol that is
tried before it, so the first one that is found is the longest.  It is the operator of the value
unless nothing but blanks comes after it; then the whole value is the operand.
-/
import Mathlib.Data.List.Infix
import FilterSql.Proofs.Filter.OperatorText

namespace FilterSql

namespace Operator

/-- A text is the symbol of an operator and a rest, and starts with no longer symbol. -/
structure IsLongest (operator : Operator) (text rest : String) : Prop where
  starts : text = operator.symbol ++ rest
  longest : ∀ (other : Operator) (tail : String), text = other.symbol ++ tail →
    other.symbol.length ≤ operator.symbol.length

theorem mem_all (operator : Operator) : operator ∈ all := by
  cases operator <;> decide

/-- No symbol goes on with one that is tried before it. -/
theorem pairwise_all :
    all.Pairwise fun first later => ¬ first.symbol.toList <+: later.symbol.toList := by
  decide

theorem find?_symbol (operator : Operator) :
    (all.find? fun other => other.symbol == operator.symbol) = some operator := by
  cases operator <;> decide

theorem symbol_injective : Function.Injective symbol := by
  intro first second hsymbol
  have hfirst := find?_symbol first
  rw [hsymbol, find?_symbol] at hfirst
  exact (Option.some.inj hfirst).symm

theorem takesEquals_iff {operator : Operator} :
    operator.takesEquals = true ↔ operator = .not ∨ operator = .gt ∨ operator = .lt := by
  cases operator <;> simp [takesEquals]

theorem exists_symbol_eq (operator : Operator) (htakes : operator.takesEquals = true) :
    ∃ longer : Operator, longer.symbol = operator.symbol ++ "=" := by
  obtain rfl | rfl | rfl := takesEquals_iff.mp htakes
  · exact ⟨.notEq, rfl⟩
  · exact ⟨.gtEq, rfl⟩
  · exact ⟨.ltEq, rfl⟩

theorem after?_eq_some_iff {operator : Operator} {text : String} {rest : List Char} :
    operator.after? text.toList = some rest ↔ text = operator.symbol ++ String.ofList rest := by
  have hchars : text = operator.symbol ++ String.ofList rest ↔
      text.toList = operator.symbol.toList ++ rest := by
    rw [← String.toList_inj, String.toList_append, String.toList_ofList]
  rw [hchars]
  simp only [after?, Option.ite_none_right_eq_some, Option.some.injEq, List.isPrefixOf_iff_prefix]
  constructor
  · rintro ⟨⟨tail, htail⟩, hrest⟩
    rw [← htail, List.drop_left] at hrest
    rw [← htail, hrest]
  · intro htext
    rw [htext]
    exact ⟨List.prefix_append _ _, List.drop_left⟩

theorem after?_of_starts {operator : Operator} {text rest : String}
    (hstarts : text = operator.symbol ++ rest) :
    operator.after? text.toList = some rest.toList := by
  rw [after?_eq_some_iff, String.ofList_toList]
  exact hstarts

/-- The search for an operator at the front of a text. -/
def scan (cs : List Char) : Option (Operator × List Char) :=
  all.findSome? fun operator => (operator.after? cs).map fun rest => (operator, Text.trim rest)

theorem prefix_of_starts {operator : Operator} {text rest : String}
    (hstarts : text = operator.symbol ++ rest) : operator.symbol.toList <+: text.toList := by
  rw [hstarts, String.toList_append]
  exact List.prefix_append _ _

/-- The operator that is found first is the longest one. -/
theorem isLongest_of_scan {operator : Operator} {text : String} {operand : List Char}
    (hscan : scan text.toList = some (operator, operand)) :
    ∃ rest, operator.IsLongest text rest ∧ operand = Text.trim rest.toList := by
  obtain ⟨before, first, after, hall, hfirst, hbefore⟩ := List.findSome?_eq_some_iff.mp hscan
  obtain ⟨rest, hrest, hpair⟩ := Option.map_eq_some_iff.mp hfirst
  cases hpair
  have hstarts := after?_eq_some_iff.mp hrest
  refine ⟨String.ofList rest, ⟨hstarts, ?_⟩, by rw [String.toList_ofList]⟩
  intro other tail htail
  have hmem := mem_all other
  rw [hall, List.mem_append, List.mem_cons] at hmem
  obtain hother | rfl | hother := hmem
  · -- An operator that is tried before would have been found.
    have hnone := hbefore other hother
    rw [Option.map_eq_none_iff, after?_of_starts htail] at hnone
    cases hnone
  · exact Nat.le_refl _
  · -- A longer one that is tried after would go on with the one that is found.
    have hlater : ¬ operator.symbol.toList <+: other.symbol.toList := by
      have hpairwise := pairwise_all
      rw [hall, List.pairwise_append, List.pairwise_cons] at hpairwise
      exact hpairwise.2.1.1 other hother
    rw [← String.length_toList, ← String.length_toList]
    by_contra hlonger
    apply hlater
    exact List.prefix_of_prefix_length_le (prefix_of_starts hstarts) (prefix_of_starts htail)
      (Nat.le_of_not_ge hlonger)

theorem scan_eq_none_iff {text : String} :
    scan text.toList = none ↔
      ∀ (operator : Operator) (rest : String), text ≠ operator.symbol ++ rest := by
  rw [scan, List.findSome?_eq_none_iff]
  constructor
  · intro hnone operator rest hstarts
    have hafter := hnone operator (mem_all operator)
    rw [Option.map_eq_none_iff, after?_of_starts hstarts] at hafter
    cases hafter
  · intro hnone operator _
    rw [Option.map_eq_none_iff, Option.eq_none_iff_forall_ne_some]
    intro rest hrest
    exact hnone operator (String.ofList rest) (after?_eq_some_iff.mp hrest)

namespace IsLongest

variable {operator other : Operator} {text rest tail : String}

/-- Only one operator is the longest. -/
theorem unique (hlongest : operator.IsLongest text rest) (hother : other.IsLongest text tail) :
    other = operator ∧ tail = rest := by
  have hlength : other.symbol.length = operator.symbol.length :=
    Nat.le_antisymm (hlongest.longest other tail hother.starts)
      (hother.longest operator rest hlongest.starts)
  have hchars : other.symbol.toList ++ tail.toList = operator.symbol.toList ++ rest.toList := by
    rw [← String.toList_append, ← String.toList_append, ← hother.starts, ← hlongest.starts]
  obtain ⟨hsymbol, htail⟩ := List.append_inj hchars
    (by rw [String.length_toList, String.length_toList, hlength])
  exact ⟨symbol_injective (String.toList_injective hsymbol), String.toList_injective htail⟩

theorem exists_of_starts (hstarts : text = other.symbol ++ tail) :
    ∃ (operator : Operator) (rest : String), operator.IsLongest text rest := by
  cases hscan : scan text.toList with
  | none => exact absurd hstarts (scan_eq_none_iff.mp hscan other tail)
  | some found =>
      obtain ⟨rest, hlongest, -⟩ := isLongest_of_scan hscan
      exact ⟨found.1, rest, hlongest⟩

theorem scan_eq (hlongest : operator.IsLongest text rest) :
    scan text.toList = some (operator, Text.trim rest.toList) := by
  cases hscan : scan text.toList with
  | none => exact absurd hlongest.starts (scan_eq_none_iff.mp hscan operator rest)
  | some found =>
      obtain ⟨tail, hfound, hoperand⟩ := isLongest_of_scan hscan
      obtain ⟨hsame, rfl⟩ := hlongest.unique hfound
      rw [← hsame, ← hoperand]

end IsLongest

end Operator

namespace Leaf

theorem ofText_eq_scan (raw : String) :
    ofText raw =
      match Operator.scan (Text.trimmed raw).toList with
      | some (operator, operand) =>
          if operand.isEmpty then ⟨none, Text.trimmed raw⟩
          else ⟨some operator, String.ofList operand⟩
      | none => ⟨none, Text.trimmed raw⟩ := by
  rw [Text.trimmed, String.toList_ofList]
  rfl

/-- The longest operator that a value starts with is read, unless its operand is blank. -/
theorem ofText_of_isLongest {raw rest : String} {operator : Operator}
    (hlongest : operator.IsLongest (Text.trimmed raw) rest) :
    ofText raw =
      if Text.isBlankText rest then ⟨none, Text.trimmed raw⟩
      else ⟨some operator, Text.trimmed rest⟩ := by
  have hempty : (Text.trim rest.toList).isEmpty = Text.isBlankText rest := by
    rw [Bool.eq_iff_iff, List.isEmpty_iff, Text.trim, Text.strip_eq_nil_iff, Text.isBlankText,
      List.all_eq_true]
  rw [ofText_eq_scan, hlongest.scan_eq]
  simp only [hempty]
  rfl

theorem ofText_of_forall_ne {raw : String}
    (hnone : ∀ (operator : Operator) (rest : String), Text.trimmed raw ≠ operator.symbol ++ rest) :
    ofText raw = ⟨none, Text.trimmed raw⟩ := by
  rw [ofText_eq_scan, Operator.scan_eq_none_iff.mpr hnone]

/-- An equals sign at the front of the operand belongs to the symbol where one can. -/
theorem ofText_symbol_append_ne {operator : Operator} {operand : String}
    (hblank : Text.isBlankText operand = false) (htakes : operator.takesEquals = true)
    (hequals : operand.toList.head? = some '=') (leaf : String) :
    ofText (operator.symbol ++ operand) ≠ ⟨some operator, leaf⟩ := by
  have hkept := Text.exists_isBlank_eq_false hblank
  obtain ⟨longer, hlonger⟩ := operator.exists_symbol_eq htakes
  obtain ⟨tail, htail⟩ : ∃ tail, operand.toList.rdropWhile Text.isBlank = '=' :: tail := by
    rw [← List.head?_eq_some_iff, Text.head?_rdropWhile hkept, hequals]
  have hstarts : Text.trimmed (operator.symbol ++ operand) =
      longer.symbol ++ String.ofList tail := by
    apply String.toList_injective
    rw [Text.trimmed, String.toList_ofList, operator.trim_symbol_append hkept, htail, hlonger]
    simp
  obtain ⟨found, rest, hlongest⟩ := Operator.IsLongest.exists_of_starts hstarts
  rw [ofText_of_isLongest hlongest]
  split
  · intro hsame
    cases hsame
  · intro hsame
    cases hsame
    have hlength := hlongest.longest longer _ hstarts
    rw [hlonger, String.length_append] at hlength
    exact Nat.not_succ_le_self _ hlength

/-- The longest symbol that a value starts with is read, unless nothing but blanks comes after it;
without one the whole value is the operand.  So an operator and an operand that are written one
after the other are read as the two, but for an equals sign that makes another operator of the
first. -/
theorem ofText_longest (raw : String) :
    ((∃ (operator : Operator) (rest : String), Text.trimmed raw = operator.symbol ++ rest) →
      ∃! found : Operator × String, found.1.IsLongest (Text.trimmed raw) found.2) ∧
    (∀ (operator : Operator) (rest : String), operator.IsLongest (Text.trimmed raw) rest →
      ofText raw =
        if Text.isBlankText rest then ⟨none, Text.trimmed raw⟩
        else ⟨some operator, Text.trimmed rest⟩) ∧
    ((∀ (operator : Operator) (rest : String), Text.trimmed raw ≠ operator.symbol ++ rest) →
      ofText raw = ⟨none, Text.trimmed raw⟩) ∧
    ∀ (operator : Operator) (operand : String), Text.isBlankText operand = false →
      (ofText (operator.symbol ++ operand) = ⟨some operator, Text.trimmed operand⟩ ↔
        ¬ ((operator = .not ∨ operator = .gt ∨ operator = .lt) ∧
          ∃ rest, operand = "=" ++ rest)) := by
  refine ⟨?_, fun _ _ => ofText_of_isLongest, ofText_of_forall_ne, ?_⟩
  · rintro ⟨other, tail, hstarts⟩
    obtain ⟨operator, rest, hlongest⟩ := Operator.IsLongest.exists_of_starts hstarts
    refine ⟨(operator, rest), hlongest, ?_⟩
    rintro ⟨another, between⟩ hanother
    obtain ⟨hsame, hrest⟩ := hlongest.unique hanother
    exact Prod.ext hsame hrest
  · intro operator operand hblank
    have hequals : (∃ rest, operand = "=" ++ rest) ↔ operand.toList.head? = some '=' := by
      rw [List.head?_eq_some_iff]
      constructor
      · rintro ⟨rest, rfl⟩
        exact ⟨rest.toList, String.toList_append⟩
      · rintro ⟨rest, hrest⟩
        refine ⟨String.ofList rest, String.toList_injective ?_⟩
        simp [hrest]
    rw [← Operator.takesEquals_iff, hequals]
    constructor
    · rintro hread ⟨htakes, hequals⟩
      exact ofText_symbol_append_ne hblank htakes hequals _ hread
    · intro hexcept
      apply ofText_symbol_append hblank
      exact fun htakes hequals => hexcept ⟨htakes, hequals⟩

end Leaf

namespace LongestOperator

theorem isLongest_atLeast : Operator.gtEq.IsLongest ">= 10" " 10" := by
  refine ⟨rfl, ?_⟩
  intro other tail hstarts
  have hprefix := Operator.prefix_of_starts hstarts
  cases other <;> first | decide | exact absurd hprefix (by decide)

/-- Of the signs for at least ten only the first is read when a blank comes between them. -/
theorem ofText_atLeast :
    Leaf.ofText " >= 10 " = ⟨some .gtEq, "10"⟩ ∧
    Leaf.ofText "ten" = ⟨none, "ten"⟩ ∧
    Leaf.ofText (Operator.gt.symbol ++ " =10") = ⟨some .gt, "=10"⟩ ∧
    Leaf.ofText (Operator.gt.symbol ++ "=10") ≠ ⟨some .gt, "=10"⟩ := by
  obtain ⟨-, hlongest, -, hwritten⟩ := Leaf.ofText_longest " >= 10 "
  obtain ⟨-, -, hwhole, -⟩ := Leaf.ofText_longest "ten"
  refine ⟨hlongest .gtEq " 10" isLongest_atLeast, ?_, ?_, ?_⟩
  · apply hwhole
    intro operator rest hstarts
    have hprefix := Operator.prefix_of_starts hstarts
    cases operator <;> exact absurd hprefix (by decide)
  · apply (hwritten .gt " =10" rfl).mpr
    rintro ⟨-, rest, hequals⟩
    have hhead := congrArg (fun s => s.toList.head?) hequals
    simp at hhead
  · intro hread
    exact (hwritten .gt "=10" rfl).mp hread ⟨.inr (.inl rfl), "10", rfl⟩

end LongestOperator

end FilterSql

/-
Operators read from the front of a filter value.

A value that is written as the symbol of an operator and an operand is read as this operator
and the operand without the blanks about it, unless an equals sign right after the symbol makes
it another one.
-/
import FilterSql.Filter.Condition
import FilterSql.Proofs.Text.Cuts

namespace FilterSql

namespace Text

/-- A text that starts with a character that stays is cut at its end alone, and not past a part
of it that does not vanish. -/
theorem strip_cons_append {p : Char → Bool} {c : Char} {front cs : List Char}
    (hc : p c = false) (hkept : ∃ c ∈ cs, p c = false) :
    strip p (c :: front ++ cs) = c :: front ++ cs.rdropWhile p := by
  have hstart : (c :: front ++ cs).dropWhile p = c :: front ++ cs := by
    rw [List.cons_append, List.dropWhile_cons_of_neg]
    rw [hc]
    exact Bool.false_ne_true
  have hend : ¬(cs.reverse.dropWhile p).isEmpty = true := by
    rw [List.isEmpty_iff, List.dropWhile_eq_nil_iff]
    obtain ⟨c, hc, hstays⟩ := hkept
    intro hall
    rw [hall c (List.mem_reverse.mpr hc)] at hstays
    cases hstays
  rw [strip_eq_rdropWhile, hstart, List.rdropWhile, List.reverse_append, List.dropWhile_append,
    if_neg hend, List.reverse_append, List.reverse_reverse, List.rdropWhile]

theorem strip_rdropWhile (p : Char → Bool) (cs : List Char) :
    strip p (cs.rdropWhile p) = strip p cs := by
  have hcut : cs.rdropWhile p ++ (cs.reverse.takeWhile p).reverse = cs := by
    rw [List.rdropWhile, ← List.reverse_append, List.takeWhile_append_dropWhile,
      List.reverse_reverse]
  have hafter : ∀ c ∈ (cs.reverse.takeWhile p).reverse, p c = true := by
    intro c hc
    exact List.mem_takeWhile_imp (List.mem_reverse.mp hc)
  have hsame := strip_append_append (List.forall_mem_nil fun c => p c = true) hafter
    (cs.rdropWhile p)
  rw [List.nil_append, hcut] at hsame
  exact hsame.symm

/-- What is cut off the end leaves the front as it is, unless it is the whole. -/
theorem head?_rdropWhile {p : Char → Bool} {cs : List Char} (hkept : ∃ c ∈ cs, p c = false) :
    (cs.rdropWhile p).head? = cs.head? := by
  obtain ⟨after, hcut⟩ := List.rdropWhile_prefix p cs
  cases hrest : cs.rdropWhile p with
  | nil =>
      obtain ⟨c, hc, hstays⟩ := hkept
      rw [List.rdropWhile_eq_nil_iff] at hrest
      rw [hrest c hc] at hstays
      cases hstays
  | cons c rest =>
      rw [← hcut, hrest]
      rfl

theorem exists_isBlank_eq_false {s : String} (hblank : isBlankText s = false) :
    ∃ c ∈ s.toList, isBlank c = false := by
  simpa [isBlankText] using hblank

end Text

namespace Operator

/-- An operator that an equals sign makes into another one. -/
def takesEquals : Operator → Bool
  | not | gt | lt => true
  | _ => false

theorem symbol_eq_cons (operator : Operator) :
    ∃ c rest, operator.symbol.toList = c :: rest ∧ Text.isBlank c = false := by
  cases operator <;> exact ⟨_, _, rfl, rfl⟩

/-- The symbol before an operand keeps its place when blanks are cut off. -/
theorem trim_symbol_append (operator : Operator) {operand : String}
    (hkept : ∃ c ∈ operand.toList, Text.isBlank c = false) :
    Text.trim (operator.symbol ++ operand).toList =
      operator.symbol.toList ++ operand.toList.rdropWhile Text.isBlank := by
  obtain ⟨first, symbol, hsymbol, hfirst⟩ := operator.symbol_eq_cons
  rw [String.toList_append, hsymbol]
  exact Text.strip_cons_append hfirst hkept

/-- Of all operators the one that is written is found. -/
theorem findSome?_after?_symbol (operator : Operator) {rest : List Char}
    (hrest : operator.takesEquals = true → rest.head? ≠ some '=') :
    (all.findSome? fun other =>
        (other.after? (operator.symbol.toList ++ rest)).map fun rest => (other, Text.trim rest)) =
      some (operator, Text.trim rest) := by
  have hequals : operator.takesEquals = true → ¬['='] <+: rest := by
    rintro htakes ⟨after, rfl⟩
    exact hrest htakes rfl
  cases operator with
  | not | gt | lt => simp [all, after?, symbol, List.findSome?, hequals rfl]
  | _ => simp [all, after?, symbol, List.findSome?]

end Operator

/-- A value that is an operator and an operand is read as the two. -/
theorem Leaf.ofText_symbol_append {operator : Operator} {operand : String}
    (hblank : Text.isBlankText operand = false)
    (hequals : operator.takesEquals = true → operand.toList.head? ≠ some '=') :
    Leaf.ofText (operator.symbol ++ operand) = ⟨some operator, Text.trimmed operand⟩ := by
  have hkept := Text.exists_isBlank_eq_false hblank
  have hwhole := operator.trim_symbol_append hkept
  have hoperand : Text.trim (operand.toList.rdropWhile Text.isBlank) = Text.trim operand.toList :=
    Text.strip_rdropWhile _ _
  have hrest : operator.takesEquals = true →
      (operand.toList.rdropWhile Text.isBlank).head? ≠ some '=' := by
    rw [Text.head?_rdropWhile hkept]
    exact hequals
  have hnonempty : (Text.trim operand.toList).isEmpty = false := by
    rw [Bool.eq_false_iff, ne_eq, List.isEmpty_iff, Text.trim, Text.strip_eq_nil_iff]
    obtain ⟨c, hc, hstays⟩ := hkept
    intro hall
    rw [hall c hc] at hstays
    cases hstays
  simp only [Leaf.ofText, hwhole, Operator.findSome?_after?_symbol operator hrest, hoperand,
    hnonempty, Bool.false_eq_true, if_false]
  rfl

/-- The condition of such a value is the one that its operator makes of the operand. -/
theorem ColumnName.condition?_symbol_append {column : ColumnName} {cast : String} {target : Target}
    (htarget : Target.ofCast? column cast = some target) (operator : Operator) {operand : String}
    (hblank : Text.isBlankText operand = false)
    (hequals : operator.takesEquals = true → operand.toList.head? ≠ some '=')
    (mode : DefaultMatch) :
    column.condition? cast (operator.symbol ++ operand) mode =
      target.operation? operator (Text.trimmed operand) := by
  have hoperand : ¬(Text.trimmed operand).isEmpty = true := by
    rw [Text.isEmpty_trimmed, hblank]
    exact Bool.false_ne_true
  rw [condition?, htarget, Leaf.ofText_symbol_append hblank hequals, Option.bind_eq_bind,
    Option.bind_some]
  exact if_neg hoperand

end FilterSql

/-
Parentheses that match.

A text is balanced when every parenthesis in it has its partner in it: it holds none, or a
balanced text in parentheses between others.  An opening parenthesis and a closing one are
partners when the text between them is balanced.
-/

namespace FilterSql.Text

/-- Every parenthesis of a text has its partner in it. -/
inductive Balanced : List Char → Prop
  | nil : Balanced []
  | char {c : Char} {cs : List Char} (hc : c ≠ '(' ∧ c ≠ ')') (h : Balanced cs) :
      Balanced (c :: cs)
  | group {inner rest : List Char} (hinner : Balanced inner) (hrest : Balanced rest) :
      Balanced ('(' :: (inner ++ ')' :: rest))

namespace Balanced

variable {cs front inner back : List Char}

theorem of_forall (h : ∀ c ∈ cs, c ≠ '(' ∧ c ≠ ')') : Balanced cs := by
  induction cs with
  | nil => exact .nil
  | cons c cs ih =>
      rw [List.forall_mem_cons] at h
      exact .char h.1 (ih h.2)

theorem append (hfront : Balanced front) (hback : Balanced back) : Balanced (front ++ back) := by
  induction hfront with
  | nil => exact hback
  | char hc _ ih => exact .char hc ih
  | group hinner _ _ ihrest =>
      rw [List.cons_append, List.append_assoc, List.cons_append]
      exact .group hinner ihrest

theorem count_eq (h : Balanced cs) : cs.count '(' = cs.count ')' := by
  induction h with
  | nil => rfl
  | char hc _ ih => rw [List.count_cons_of_ne hc.1, List.count_cons_of_ne hc.2, ih]
  | group _ _ ihinner ihrest =>
      simp only [List.count_cons, List.count_append, ihinner, ihrest, beq_self_eq_true,
        show ('(' == ')') = false from rfl, show (')' == '(') = false from rfl]
      omega

/-- At its front a balanced text has no fewer opening parentheses than closing ones. -/
theorem count_le (h : Balanced (front ++ back)) : front.count ')' ≤ front.count '(' := by
  generalize hcs : front ++ back = cs at h
  induction h generalizing front back with
  | nil =>
      rw [(List.append_eq_nil_iff.mp hcs).1]
      exact Nat.le_refl _
  | char hc _ ih =>
      cases front with
      | nil => exact Nat.le_refl _
      | cons first front =>
          cases hcs
          rw [List.count_cons_of_ne hc.1, List.count_cons_of_ne hc.2]
          exact ih rfl
  | @group inner rest hinner _ ihinner ihrest =>
      cases front with
      | nil => exact Nat.le_refl _
      | cons first front =>
          obtain ⟨rfl, hinside⟩ := List.cons.inj hcs
          have hopened : ('(' :: front).count '(' = front.count '(' + 1 := List.count_cons_self
          rw [List.count_cons_of_ne (by decide), hopened]
          -- The front ends inside the parentheses, before the closing one or after it.
          rcases List.append_eq_append_iff.mp hinside with ⟨more, rfl, -⟩ | ⟨more, rfl, hmore⟩
          · exact Nat.le_succ_of_le (ihinner rfl)
          · cases more with
            | nil =>
                rw [List.append_nil, hinner.count_eq]
                exact Nat.le_succ _
            | cons closing more =>
                obtain ⟨rfl, hrest⟩ := List.cons.inj hmore
                have hle := ihrest hrest.symm
                have hclosed : (')' :: more).count ')' = more.count ')' + 1 :=
                  List.count_cons_self
                rw [List.count_append, List.count_append, hclosed,
                  List.count_cons_of_ne (by decide), hinner.count_eq]
                omega

/-- An opening parenthesis before a balanced text has no partner in it. -/
theorem not_opening (hinner : Balanced inner) : ¬Balanced (front ++ '(' :: inner) := by
  intro h
  have hle := h.count_le
  have heq := h.count_eq
  rw [List.count_append, List.count_append, List.count_cons_self,
    List.count_cons_of_ne (by decide), hinner.count_eq] at heq
  omega

/-- A closing parenthesis after a balanced text has no partner in it. -/
theorem not_closing (hinner : Balanced inner) : ¬Balanced (inner ++ ')' :: back) := by
  intro h
  rw [← List.singleton_append, ← List.append_assoc] at h
  have hle := h.count_le
  rw [List.count_append, List.count_append, hinner.count_eq] at hle
  exact absurd hle (Nat.not_succ_le_self _)

end Balanced

/-- A parenthesis between two texts has no partner in either of them. -/
inductive Unpaired (before after : List Char) : Char → Prop
  | opening (h : ∀ inner back, after = inner ++ ')' :: back → ¬Balanced inner) :
      Unpaired before after '('
  | closing (h : ∀ front inner, before = front ++ '(' :: inner → ¬Balanced inner) :
      Unpaired before after ')'

theorem Balanced.unpaired_opening {after : List Char} (hafter : Balanced after)
    (before : List Char) : Unpaired before after '(' := by
  refine .opening ?_
  rintro inner back rfl hinner
  exact hinner.not_closing hafter

theorem Balanced.unpaired_closing {before : List Char} (hbefore : Balanced before)
    (after : List Char) : Unpaired before after ')' := by
  refine .closing ?_
  rintro front inner rfl hinner
  exact hinner.not_opening hbefore

end FilterSql.Text

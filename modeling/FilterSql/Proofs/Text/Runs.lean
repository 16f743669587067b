/-
Runs of characters.

A run of a text holds characters of one kind alone, and none of that kind stands beside it.  A
text is made of blocks of equal characters, and a run of one character is one of these blocks.
-/
import FilterSql.Proofs.Text.Cuts

namespace FilterSql.Text

/-- Characters that satisfy `p` stand between two texts, all that do side by side. -/
structure IsRun (p : Char → Bool) (before run after : List Char) : Prop where
  ne_nil : run ≠ []
  chars : ∀ c ∈ run, p c = true
  before : ∀ c ∈ before.getLast?, p c = false
  after : ∀ c ∈ after.head?, p c = false

namespace IsRun

variable {p : Char → Bool} {front before run after : List Char}

/-- A run is a run also where text is put before what stands before it. -/
theorem append_left (h : IsRun p before run after)
    (hfront : before = [] → ∀ c ∈ front.getLast?, p c = false) :
    IsRun p (front ++ before) run after := by
  refine ⟨h.ne_nil, h.chars, ?_, h.after⟩
  cases hlast : before.getLast? with
  | none =>
      have hbefore := List.getLast?_eq_none_iff.mp hlast
      rw [hbefore, List.append_nil]
      exact hfront hbefore
  | some c =>
      rw [List.getLast?_append, hlast, Option.some_or, ← hlast]
      exact h.before

theorem of_append_left (h : IsRun p (front ++ before) run after) : IsRun p before run after := by
  refine ⟨h.ne_nil, h.chars, ?_, h.after⟩
  intro c hc
  apply h.before
  rw [List.getLast?_append, Option.mem_def.mp hc, Option.some_or]
  rfl

theorem takeWhile_eq (h : IsRun p before run after) : (run ++ after).takeWhile p = run := by
  rw [takeWhile_append_of_head run h.after, List.takeWhile_eq_self_iff]
  exact h.chars

end IsRun

/-- Every text is blocks of equal characters, each as long as it can be. -/
theorem induction_on_blocks {P : List Char → Prop} (nil : P [])
    (block : ∀ (c : Char) (count : Nat) (rest : List Char), rest.head? ≠ some c → P rest →
      P (List.replicate (count + 1) c ++ rest)) (cs : List Char) : P cs := by
  induction hlength : cs.length using Nat.strongRecOn generalizing cs with
  | ind length ih =>
      cases cs with
      | nil => exact nil
      | cons c cs =>
          have hrun : cs.takeWhile (· == c) = List.replicate (cs.takeWhile (· == c)).length c := by
            rw [List.eq_replicate_iff]
            refine ⟨rfl, fun d hd => ?_⟩
            simpa using List.mem_takeWhile_imp hd
          have hhead : (cs.dropWhile (· == c)).head? ≠ some c := by
            intro hsome
            have hnot := List.head?_dropWhile_not (· == c) cs
            simp [hsome] at hnot
          have hshorter := length_dropWhile_le (· == c) cs
          have hrest := ih (cs.dropWhile (· == c)).length
            (by rw [← hlength, List.length_cons]; omega) _ rfl
          have hwhole := block c (cs.takeWhile (· == c)).length _ hhead hrest
          rw [List.replicate_succ, ← hrun, List.cons_append,
            List.takeWhile_append_dropWhile] at hwhole
          exact hwhole

theorem isRun_replicate {c : Char} {rest : List Char} (hrest : rest.head? ≠ some c)
    (count : Nat) : IsRun (· == c) [] (List.replicate (count + 1) c) rest where
  ne_nil := by simp
  chars := by simp
  before := by simp
  after := by
    intro d hd
    rw [beq_eq_false_iff_ne]
    rintro rfl
    exact hrest hd

/-- A run of one character is the block at the front, or comes after it. -/
theorem exists_isRun_iff {c sign : Char} {count : Nat} {rest : List Char}
    (hrest : rest.head? ≠ some c) {before run : List Char} :
    (∃ after, List.replicate (count + 1) c ++ rest = before ++ (run ++ after) ∧
        IsRun (· == sign) before run after) ↔
      (before = [] ∧ sign = c ∧ run = List.replicate (count + 1) c) ∨
        ∃ between, before = List.replicate (count + 1) c ++ between ∧
          ∃ after, rest = between ++ (run ++ after) ∧ IsRun (· == sign) between run after := by
  constructor
  · rintro ⟨after, hcs, hrun⟩
    rcases List.append_eq_append_iff.mp hcs with ⟨between, rfl, hback⟩ | ⟨tail, hblock, hback⟩
    · exact Or.inr ⟨between, rfl, after, hback, hrun.of_append_left⟩
    · have hmem : ∀ d ∈ before ++ tail, d = c := by
        rw [← hblock]
        exact fun d hd => List.eq_of_mem_replicate hd
      cases tail with
      | nil =>
          have hafter : IsRun (· == sign) (before ++ []) run after := by rwa [List.append_nil]
          exact Or.inr ⟨[], by simpa using hblock.symm, after, hback.symm, hafter.of_append_left⟩
      | cons d tail =>
          -- The run starts inside the block, so it is of the same character and the whole block.
          left
          obtain ⟨first, others, rfl⟩ := List.exists_cons_of_ne_nil hrun.ne_nil
          obtain ⟨rfl, -⟩ := List.cons.inj hback
          have hsign : first = sign := by simpa using hrun.chars first List.mem_cons_self
          have hfirst : first = c := hmem first (by simp)
          subst hsign hfirst
          have hbefore : before = [] := by
            rw [← List.getLast?_eq_none_iff, Option.eq_none_iff_forall_not_mem]
            intro last hlast
            have hsame := hmem last (List.mem_append_left _ (List.mem_of_getLast? hlast))
            have hother := hrun.before last hlast
            simp [hsame] at hother
          subst hbefore
          refine ⟨rfl, rfl, ?_⟩
          rw [← hrun.takeWhile_eq, ← (isRun_replicate hrest count).takeWhile_eq, hcs,
            List.nil_append]
  · rintro (⟨rfl, rfl, rfl⟩ | ⟨between, rfl, after, rfl, hrun⟩)
    · exact ⟨rest, rfl, isRun_replicate hrest count⟩
    · refine ⟨after, by rw [List.append_assoc], hrun.append_left ?_⟩
      rintro rfl d hd
      obtain ⟨first, others, rfl⟩ := List.exists_cons_of_ne_nil hrun.ne_nil
      have hsign : first = sign := by simpa using hrun.chars first List.mem_cons_self
      have hlast : d = c := List.eq_of_mem_replicate (List.mem_of_getLast? hd)
      rw [beq_eq_false_iff_ne, hlast, ← hsign]
      rintro rfl
      exact hrest rfl

end FilterSql.Text

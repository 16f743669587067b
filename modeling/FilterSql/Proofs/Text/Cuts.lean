/-
Cutting and trimming.

What is cut off both ends was there before, and cutting once more changes nothing.  The
parts about a separator, with the separator between, are the whole.
-/
import Mathlib.Data.List.DropRight
import FilterSql.Text.Basic

namespace FilterSql.Text

theorem mem_of_mem_strip {p : Char → Bool} {cs : List Char} {c : Char}
    (hc : c ∈ strip p cs) : c ∈ cs := by
  simp only [strip, List.mem_reverse] at hc
  have hreverse := (List.dropWhile_suffix p).subset hc
  exact (List.dropWhile_suffix p).subset (List.mem_reverse.mp hreverse)

theorem mem_strip {p : Char → Bool} {cs : List Char} {c : Char} (hc : c ∈ cs)
    (hkept : p c = false) : c ∈ strip p cs := by
  have hdrop : ∀ ds : List Char, c ∈ ds → c ∈ ds.dropWhile p := by
    intro ds hmem
    rw [← List.takeWhile_append_dropWhile (p := p) (l := ds), List.mem_append] at hmem
    refine hmem.resolve_left fun htaken => ?_
    rw [List.mem_takeWhile_imp htaken] at hkept
    cases hkept
  rw [strip, List.mem_reverse]
  exact hdrop _ (List.mem_reverse.mpr (hdrop cs hc))

theorem cut?_eq_some {sep : Char} {cs before after : List Char}
    (hcut : cut? sep cs = some (before, after)) : cs = before ++ sep :: after := by
  induction cs generalizing before with
  | nil => cases hcut
  | cons c cs ih =>
      rw [cut?] at hcut
      split at hcut
      next hsep =>
        cases hcut
        rw [hsep]
        rfl
      next =>
        simp only [Option.map_eq_some_iff, Prod.exists] at hcut
        obtain ⟨head, tail, hrest, hpair⟩ := hcut
        cases hpair
        rw [ih hrest]
        rfl

theorem cut?_eq_none_iff {sep : Char} {cs : List Char} : cut? sep cs = none ↔ sep ∉ cs := by
  induction cs with
  | nil => simp [cut?]
  | cons c cs ih =>
      rw [cut?]
      split
      next hsep => simp [hsep]
      next hother =>
        rw [Option.map_eq_none_iff, ih, List.mem_cons, not_or]
        exact (and_iff_right (Ne.symm hother)).symm

theorem cut?_append_cons {sep : Char} {front : List Char} (hsep : sep ∉ front)
    (back : List Char) : cut? sep (front ++ sep :: back) = some (front, back) := by
  induction front with
  | nil => rw [List.nil_append, cut?, if_pos rfl]
  | cons c front ih =>
      rw [List.mem_cons, not_or] at hsep
      rw [List.cons_append, cut?, if_neg (Ne.symm hsep.1), ih hsep.2]
      rfl

/-- What stands before the first separator has none. -/
theorem notMem_of_cut? {sep : Char} {cs before after : List Char}
    (hcut : cut? sep cs = some (before, after)) : sep ∉ before := by
  induction cs generalizing before with
  | nil => cases hcut
  | cons c cs ih =>
      rw [cut?] at hcut
      split at hcut
      next =>
        cases hcut
        exact List.not_mem_nil
      next hother =>
        simp only [Option.map_eq_some_iff, Prod.exists] at hcut
        obtain ⟨head, tail, hrest, hpair⟩ := hcut
        cases hpair
        rw [List.mem_cons, not_or]
        exact ⟨Ne.symm hother, ih hrest⟩

theorem cutLast?_eq_some {sep : Char} {cs before after : List Char}
    (hcut : cutLast? sep cs = some (before, after)) : cs = before ++ sep :: after := by
  simp only [cutLast?, Option.map_eq_some_iff, Prod.exists] at hcut
  obtain ⟨last, first, hreverse, hpair⟩ := hcut
  cases hpair
  have hcs := congrArg List.reverse (cut?_eq_some hreverse)
  simpa using hcs

theorem cutLast?_eq_none_iff {sep : Char} {cs : List Char} :
    cutLast? sep cs = none ↔ sep ∉ cs := by
  rw [cutLast?, Option.map_eq_none_iff, cut?_eq_none_iff, List.mem_reverse]

theorem cutLast?_append_cons {sep : Char} {back : List Char} (hsep : sep ∉ back)
    (front : List Char) : cutLast? sep (front ++ sep :: back) = some (front, back) := by
  have hreverse : (front ++ sep :: back).reverse = back.reverse ++ sep :: front.reverse := by simp
  rw [cutLast?, hreverse, cut?_append_cons (by simpa using hsep)]
  simp

/-- What stands after the last separator has none. -/
theorem notMem_of_cutLast? {sep : Char} {cs before after : List Char}
    (hcut : cutLast? sep cs = some (before, after)) : sep ∉ after := by
  simp only [cutLast?, Option.map_eq_some_iff, Prod.exists] at hcut
  obtain ⟨last, first, hreverse, hpair⟩ := hcut
  cases hpair
  rw [List.mem_reverse]
  exact notMem_of_cut? hreverse

theorem strip_eq_rdropWhile (p : Char → Bool) (cs : List Char) :
    strip p cs = (cs.dropWhile p).rdropWhile p := rfl

theorem dropWhile_strip (p : Char → Bool) (cs : List Char) :
    (strip p cs).dropWhile p = strip p cs := by
  rw [List.dropWhile_eq_self_iff]
  intro hlength
  have hprefix : strip p cs <+: cs.dropWhile p := by
    rw [strip_eq_rdropWhile]
    exact List.rdropWhile_prefix p _
  have hpos : 0 < (cs.dropWhile p).length := Nat.lt_of_lt_of_le hlength hprefix.length_le
  have hhead : (strip p cs)[0] = (cs.dropWhile p)[0] := hprefix.getElem hlength
  rw [hhead]
  exact List.dropWhile_get_zero_not p cs hpos

@[simp] theorem strip_strip (p : Char → Bool) (cs : List Char) :
    strip p (strip p cs) = strip p cs := by
  rw [strip_eq_rdropWhile p (strip p cs), dropWhile_strip, strip_eq_rdropWhile]
  exact List.rdropWhile_idempotent p _

@[simp] theorem trim_trim (cs : List Char) : trim (trim cs) = trim cs :=
  strip_strip isBlank cs

theorem strip_eq_nil_iff {p : Char → Bool} {cs : List Char} :
    strip p cs = [] ↔ ∀ c ∈ cs, p c = true := by
  rw [strip_eq_rdropWhile, List.rdropWhile_eq_nil_iff]
  constructor
  · intro hdropped c hc
    rw [← List.takeWhile_append_dropWhile (p := p) (l := cs), List.mem_append] at hc
    rcases hc with hc | hc
    · exact List.mem_takeWhile_imp hc
    · exact hdropped c hc
  · intro hall c hc
    exact hall c ((List.dropWhile_suffix p).subset hc)

section Between

variable {p : Char → Bool} {c : Char} (hc : p c = true)
include hc

/-- A character that could be cut off the front stays when one before it does. -/
theorem exists_dropWhile_eq_iff {cs after : List Char} :
    (∃ before, cs.dropWhile p = before ++ c :: after) ↔
      ∃ before, cs = before ++ c :: after ∧ ∃ d ∈ before, p d = false := by
  constructor
  · rintro ⟨before, hdropped⟩
    have hfirst : ∀ d rest, cs.dropWhile p = d :: rest → p d = false := by
      intro d rest hrest
      have hhead := List.head?_dropWhile_not p cs
      simpa [hrest] using hhead
    refine ⟨cs.takeWhile p ++ before, ?_, ?_⟩
    · rw [List.append_assoc, ← hdropped, List.takeWhile_append_dropWhile]
    · cases before with
      | nil =>
          rw [hfirst c after hdropped] at hc
          cases hc
      | cons d before =>
          refine ⟨d, ?_, hfirst d _ hdropped⟩
          exact List.mem_append_right _ List.mem_cons_self
  · rintro ⟨before, rfl, d, hd, hkept⟩
    have hsome : ¬ (before.dropWhile p).isEmpty := by
      rw [List.isEmpty_iff, List.dropWhile_eq_nil_iff]
      intro hall
      rw [hall d hd] at hkept
      cases hkept
    exact ⟨before.dropWhile p, by rw [List.dropWhile_append, if_neg hsome]⟩

/-- A character that could be cut off an end stays when on either side one does. -/
theorem mem_strip_iff {cs : List Char} :
    c ∈ strip p cs ↔ ∃ before after, cs = before ++ c :: after ∧
      (∃ d ∈ before, p d = false) ∧ ∃ d ∈ after, p d = false := by
  have hback : c ∈ strip p cs ↔ ∃ after, (∃ before, cs.dropWhile p = before ++ c :: after) ∧
      ∃ d ∈ after, p d = false := by
    rw [strip, List.mem_reverse, List.mem_iff_append, exists_comm]
    constructor
    · rintro ⟨after, hfound⟩
      obtain ⟨before, hreverse, hkept⟩ := (exists_dropWhile_eq_iff hc).mp hfound
      refine ⟨before.reverse, ⟨after.reverse, ?_⟩, by simpa using hkept⟩
      simpa using congrArg List.reverse hreverse
    · rintro ⟨after, ⟨before, hdropped⟩, hkept⟩
      refine ⟨before.reverse, (exists_dropWhile_eq_iff hc).mpr ⟨after.reverse, ?_, ?_⟩⟩
      · simp [hdropped]
      · simpa using hkept
  rw [hback]
  simp only [exists_dropWhile_eq_iff hc]
  constructor
  · rintro ⟨after, ⟨before, hcs, hbefore⟩, hafter⟩
    exact ⟨before, after, hcs, hbefore, hafter⟩
  · rintro ⟨before, after, hcs, hbefore, hafter⟩
    exact ⟨after, ⟨before, hcs, hbefore⟩, hafter⟩

/-- On either side of a character that could be cut off, what is left has one that could not. -/
theorem exists_of_strip_eq {cs before after : List Char}
    (hstrip : strip p cs = before ++ c :: after) :
    (∃ d ∈ before, p d = false) ∧ ∃ d ∈ after, p d = false := by
  have hfront : ∀ {ds first second : List Char}, ds.dropWhile p = ds →
      ds = first ++ c :: second → ∃ d ∈ first, p d = false := by
    intro ds first second hdropped hds
    obtain ⟨before, hsame, hkept⟩ := (exists_dropWhile_eq_iff hc).mp ⟨first, hdropped.trans hds⟩
    rw [hds] at hsame
    rwa [List.append_cancel_right hsame]
  constructor
  · exact hfront (dropWhile_strip p cs) hstrip
  · have hback : (strip p cs).reverse.dropWhile p = (strip p cs).reverse := by
      rw [strip, List.reverse_reverse, List.dropWhile_idempotent]
    have hreverse : (strip p cs).reverse = after.reverse ++ c :: before.reverse := by
      simp [hstrip]
    simpa using hfront hback hreverse

end Between

/-- What is cut off anyway may stand about a text. -/
theorem strip_append_append {p : Char → Bool} {before after : List Char}
    (hbefore : ∀ c ∈ before, p c = true) (hafter : ∀ c ∈ after, p c = true) (cs : List Char) :
    strip p (before ++ (cs ++ after)) = strip p cs := by
  rw [strip, strip, List.dropWhile_append_of_pos hbefore, List.dropWhile_append]
  split
  next hempty =>
    rw [List.isEmpty_iff.mp hempty, List.dropWhile_eq_nil_iff.mpr hafter]
  next =>
    have hreverse : ∀ c ∈ after.reverse, p c = true :=
      fun c hc => hafter c (List.mem_reverse.mp hc)
    rw [List.reverse_append, List.dropWhile_append_of_pos hreverse]

theorem isBlank_of_isAsciiBlank {c : Char} (hblank : isAsciiBlank c = true) :
    isBlank c = true := by
  simp only [isAsciiBlank, Bool.or_eq_true, beq_iff_eq] at hblank
  rcases hblank with (((rfl | rfl) | rfl) | rfl) | rfl <;> rfl

theorem trimmed_ofList_trim (cs : List Char) :
    trimmed (String.ofList (trim cs)) = String.ofList (trim cs) := by
  rw [trimmed, String.toList_ofList, trim_trim]

theorem isEmpty_trimmed (s : String) : (trimmed s).isEmpty = isBlankText s := by
  rw [Bool.eq_iff_iff]
  simp [trimmed, isBlankText, trim, strip_eq_nil_iff]

theorem dropWhile_eq_self_iff_head {p : Char → Bool} {cs : List Char} :
    cs.dropWhile p = cs ↔ ∀ c ∈ cs.head?, p c = false := by
  cases cs with
  | nil => simp
  | cons c cs =>
      rw [List.dropWhile_eq_self_iff]
      simp

/-- Nothing is cut off a text that has nothing to cut off at its ends. -/
theorem strip_eq_self_iff {p : Char → Bool} {cs : List Char} :
    strip p cs = cs ↔ (∀ c ∈ cs.head?, p c = false) ∧ ∀ c ∈ cs.getLast?, p c = false := by
  rw [← List.head?_reverse, ← dropWhile_eq_self_iff_head, ← dropWhile_eq_self_iff_head]
  constructor
  · intro hstrip
    have hfront : cs.dropWhile p = cs := by
      rw [← hstrip]
      exact dropWhile_strip p cs
    rw [strip, hfront] at hstrip
    exact ⟨hfront, List.reverse_eq_iff.mp hstrip⟩
  · rintro ⟨hfront, hback⟩
    rw [strip, hfront, hback, List.reverse_reverse]

/-- Nothing is cut off a text without characters that could be. -/
theorem strip_of_forall {p : Char → Bool} {cs : List Char} (hkept : ∀ c ∈ cs, p c = false) :
    strip p cs = cs :=
  strip_eq_self_iff.mpr
    ⟨fun c hc => hkept c (List.mem_of_head? hc), fun c hc => hkept c (List.mem_of_getLast? hc)⟩

/-- Texts that nothing is cut off may be put together about a character that stays. -/
theorem strip_append_cons {p : Char → Bool} {front back : List Char} {c : Char}
    (hc : p c = false) (hfront : strip p front = front) (hback : strip p back = back) :
    strip p (front ++ c :: back) = front ++ c :: back := by
  rw [strip_eq_self_iff] at hfront hback ⊢
  constructor
  · cases front with
    | nil => simpa using hc
    | cons d front => exact hfront.1
  · cases hlast : back.getLast? with
    | none => simpa [List.getLast?_cons, hlast] using hc
    | some d => simpa [List.getLast?_cons, hlast] using hback.2 d hlast

theorem pieces_of_notMem {sep : Char} {cs : List Char} (hsep : sep ∉ cs) :
    pieces sep cs = [cs] := by
  induction cs with
  | nil => rfl
  | cons c cs ih =>
      rw [List.mem_cons, not_or] at hsep
      rw [pieces, if_neg (Ne.symm hsep.1), ih hsep.2]

theorem pieces_append_cons {sep : Char} {front : List Char} (hsep : sep ∉ front)
    (back : List Char) : pieces sep (front ++ sep :: back) = front :: pieces sep back := by
  induction front with
  | nil => rw [List.nil_append, pieces, if_pos rfl]
  | cons c front ih =>
      rw [List.mem_cons, not_or] at hsep
      rw [List.cons_append, pieces, if_neg (Ne.symm hsep.1), ih hsep.2]

theorem notMem_of_mem_pieces {sep : Char} {cs piece : List Char}
    (hpiece : piece ∈ pieces sep cs) : sep ∉ piece := by
  induction cs generalizing piece with
  | nil =>
      rw [List.mem_singleton.mp hpiece]
      exact List.not_mem_nil
  | cons c cs ih =>
      rw [pieces] at hpiece
      split at hpiece
      next =>
        rcases List.mem_cons.mp hpiece with rfl | hpiece
        · exact List.not_mem_nil
        · exact ih hpiece
      next hother =>
        cases hpieces : pieces sep cs with
        | nil => exact absurd hpieces (pieces_ne_nil sep cs)
        | cons first rest =>
            rw [hpieces] at hpiece ih
            rcases List.mem_cons.mp hpiece with rfl | hpiece
            · rw [List.mem_cons, not_or]
              exact ⟨Ne.symm hother, ih List.mem_cons_self⟩
            · exact ih (List.mem_cons_of_mem _ hpiece)

/-- Parts without a separator are the pieces of the text that joins them. -/
theorem pieces_join {sep : Char} {parts : List (List Char)} (hparts : parts ≠ [])
    (hsep : ∀ part ∈ parts, sep ∉ part) : pieces sep (join sep parts) = parts := by
  induction parts with
  | nil => exact absurd rfl hparts
  | cons part parts ih =>
      rw [List.forall_mem_cons] at hsep
      cases parts with
      | nil => exact pieces_of_notMem hsep.1
      | cons next rest =>
          have hjoin :
              join sep (part :: next :: rest) = part ++ sep :: join sep (next :: rest) := rfl
          rw [hjoin, pieces_append_cons hsep.1, ih (List.cons_ne_nil _ _) hsep.2]

/-- A run of characters ends where what follows cannot go on with it. -/
theorem takeWhile_append_of_head {p : Char → Bool} {rest : List Char} (cs : List Char)
    (hrest : ∀ c ∈ rest.head?, p c = false) : (cs ++ rest).takeWhile p = cs.takeWhile p := by
  induction cs with
  | nil =>
      cases rest with
      | nil => rfl
      | cons c cs => simp [hrest c rfl]
  | cons c cs ih => simp [List.takeWhile_cons, ih]

theorem dropWhile_append_of_head {p : Char → Bool} {rest : List Char} (cs : List Char)
    (hrest : ∀ c ∈ rest.head?, p c = false) :
    (cs ++ rest).dropWhile p = cs.dropWhile p ++ rest := by
  induction cs with
  | nil =>
      cases rest with
      | nil => rfl
      | cons c cs => simp [hrest c rfl]
  | cons c cs ih =>
      rw [List.cons_append, List.dropWhile_cons, List.dropWhile_cons, ih]
      split <;> rfl

end FilterSql.Text

/-
Texts in lower case.

What a letter becomes in lower case has no lower case of its own, so a text in lower case stays
as it is.  A sign that is no letter stays where it is, and one that ends a word stands apart
from the text before and after it.
-/
import FilterSql.Text.Lowercase

namespace FilterSql.Text

namespace LetterCase

namespace LowerRun

/-- Whether what the letters of a run become lies before, behind or between the letters of
another one. -/
def avoids (run other : LowerRun) : Bool :=
  (run.target + (run.last - run.first)).blt other.first || other.last.blt run.target ||
    ((run.first == run.last || run.step == 2) && other.step == 2 &&
      (run.target + other.first) % 2 == 1)

/-- Whether the letters of a run become code points of characters, all of them behind those of
the capital letters and signs of ASCII, and none of them the capital I with a dot. -/
def isProper (run : LowerRun) : Bool :=
  Nat.blt 0x60 run.target &&
    ((run.target + (run.last - run.first)).blt 0xD800 ||
      Nat.blt 0xDFFF run.target && (run.target + (run.last - run.first)).blt 0x110000) &&
    ((run.target + (run.last - run.first)).blt 0x130 || Nat.blt 0x130 run.target ||
      run.step == 2 && run.target % 2 == 1)

theorem map?_eq_some {run : LowerRun} {n point : Nat} (hpoint : run.map? n = some point) :
    run.first ≤ n ∧ n ≤ run.last ∧ (n - run.first) % run.step = 0 ∧
      point = run.target + (n - run.first) := by
  rw [map?] at hpoint
  split at hpoint
  next hcovered =>
    obtain ⟨hfirst, hlast, hstep⟩ := hcovered
    exact ⟨hfirst, hlast, hstep, (Option.some.inj hpoint).symm⟩
  next => cases hpoint

theorem map?_eq_none_of_avoids {run other : LowerRun} {n point : Nat}
    (havoids : run.avoids other = true) (hpoint : run.map? n = some point) :
    other.map? point = none := by
  obtain ⟨hfirst, hlast, hstep, rfl⟩ := map?_eq_some hpoint
  rw [map?, if_neg]
  rintro ⟨hotherFirst, hotherLast, hotherStep⟩
  simp only [avoids, Bool.or_eq_true, Bool.and_eq_true, Nat.blt_eq, beq_iff_eq] at havoids
  obtain (hbefore | hbehind) | ⟨⟨halone | htwo, hotherTwo⟩, hodd⟩ := havoids
  · omega
  · omega
  · rw [hotherTwo] at hotherStep
    omega
  · rw [htwo] at hstep
    rw [hotherTwo] at hotherStep
    omega

theorem isProper_point {run : LowerRun} {n point : Nat} (hproper : run.isProper = true)
    (hpoint : run.map? n = some point) :
    0x60 < point ∧ point.isValidChar ∧ point ≠ 0x130 := by
  obtain ⟨hfirst, hlast, hstep, rfl⟩ := map?_eq_some hpoint
  simp only [isProper, Bool.or_eq_true, Bool.and_eq_true, Nat.blt_eq, beq_iff_eq] at hproper
  obtain ⟨⟨hsmall, hvalid⟩, hdotted⟩ := hproper
  refine ⟨by omega, ?_, ?_⟩
  · rw [Nat.isValidChar]
    omega
  · obtain (hbefore | hbehind) | ⟨htwo, hodd⟩ := hdotted
    · omega
    · omega
    · rw [htwo] at hstep
      omega

end LowerRun

theorem lowerRuns_avoids :
    (lowerRuns.all fun run => run.isProper && lowerRuns.all run.avoids) = true := by
  decide +kernel

/-- A code point stays in lower case, or a run has it. -/
theorem lowerPoint_eq_or (n : Nat) : lowerPoint n = n ∨
    ∃ run ∈ lowerRuns, run.map? n = some (lowerPoint n) := by
  cases hfound : lowerRuns.findSome? fun run => run.map? n with
  | none =>
      left
      rw [lowerPoint, hfound]
      rfl
  | some point =>
      right
      obtain ⟨run, hrun, hpoint⟩ := List.exists_of_findSome?_eq_some hfound
      refine ⟨run, hrun, ?_⟩
      rw [lowerPoint, hfound]
      exact hpoint

@[simp] theorem lowerPoint_lowerPoint (n : Nat) : lowerPoint (lowerPoint n) = lowerPoint n := by
  obtain hsame | ⟨run, hrun, hpoint⟩ := lowerPoint_eq_or n
  · rw [hsame, hsame]
  · have havoids := (Bool.and_eq_true_iff.mp (List.all_eq_true.mp lowerRuns_avoids run hrun)).2
    have hnone : (lowerRuns.findSome? fun other => other.map? (lowerPoint n)) = none := by
      rw [List.findSome?_eq_none_iff]
      intro other hother
      exact LowerRun.map?_eq_none_of_avoids (List.all_eq_true.mp havoids other hother) hpoint
    rw [lowerPoint, hnone]
    rfl

/-- What is another code point in lower case becomes a letter. -/
theorem lowerPoint_of_ne {n : Nat} (hother : lowerPoint n ≠ n) :
    0x60 < lowerPoint n ∧ (lowerPoint n).isValidChar ∧ lowerPoint n ≠ 0x130 := by
  obtain ⟨run, hrun, hpoint⟩ := (lowerPoint_eq_or n).resolve_left hother
  have hproper := (Bool.and_eq_true_iff.mp (List.all_eq_true.mp lowerRuns_avoids run hrun)).1
  exact LowerRun.isProper_point hproper hpoint

end LetterCase

open LetterCase

/-- A character that is its own lower case. -/
def IsLower (c : Char) : Prop :=
  lowerPoint c.toNat = c.toNat ∧ c ≠ 'İ'

instance (c : Char) : Decidable (IsLower c) :=
  inferInstanceAs (Decidable (_ ∧ _))

theorem IsLower.lowerChar_eq {c : Char} (hlower : IsLower c) : lowerChar c = [c] := by
  rw [lowerChar, if_neg hlower.2, hlower.1, Char.ofNat_toNat]

theorem IsLower.ne_sigma {c : Char} (hlower : IsLower c) : c ≠ 'Σ' := by
  rintro rfl
  exact absurd hlower (by decide +kernel)

theorem toNat_ofNat {n : Nat} (hvalid : n.isValidChar) : (Char.ofNat n).toNat = n := by
  rw [Char.ofNat, dif_pos hvalid]
  rfl

theorem toNat_ofNat_lowerPoint (c : Char) :
    (Char.ofNat (lowerPoint c.toNat)).toNat = lowerPoint c.toNat := by
  by_cases hsame : lowerPoint c.toNat = c.toNat
  · rw [hsame, Char.ofNat_toNat]
  · exact toNat_ofNat (lowerPoint_of_ne hsame).2.1

theorem isLower_of_mem_lowerChar {c d : Char} (hd : d ∈ lowerChar c) : IsLower d := by
  rw [lowerChar] at hd
  split at hd
  next =>
    have hboth : IsLower 'i' ∧ IsLower '\u0307' := by decide +kernel
    rw [List.mem_cons, List.mem_singleton] at hd
    obtain rfl | rfl := hd
    · exact hboth.1
    · exact hboth.2
  next hdotted =>
    rw [List.mem_singleton] at hd
    have hpoint : d.toNat = lowerPoint c.toNat := by
      rw [hd, toNat_ofNat_lowerPoint]
    constructor
    · rw [hpoint, lowerPoint_lowerPoint]
    · rintro rfl
      by_cases hsame : lowerPoint c.toNat = c.toNat
      · apply hdotted
        rw [hd, hsame, Char.ofNat_toNat]
      · exact (lowerPoint_of_ne hsame).2.2 hpoint.symm

theorem isLower_smallSigma (before after : List Char) : IsLower (smallSigma before after) := by
  have hboth : IsLower 'ς' ∧ IsLower 'σ' := by decide +kernel
  rw [smallSigma]
  split
  · exact hboth.1
  · exact hboth.2

theorem isLower_of_mem_lowerAfter {before cs : List Char} {d : Char}
    (hd : d ∈ lowerAfter before cs) : IsLower d := by
  induction cs generalizing before with
  | nil => cases hd
  | cons c cs ih =>
      rw [lowerAfter] at hd
      split at hd
      · obtain rfl | hd := List.mem_cons.mp hd
        · exact isLower_smallSigma before cs
        · exact ih hd
      · obtain hd | hd := List.mem_append.mp hd
        · exact isLower_of_mem_lowerChar hd
        · exact ih hd

/-- All characters of a text in lower case are their own lower case. -/
theorem isLower_of_mem_lower {cs : List Char} {d : Char} (hd : d ∈ lower cs) : IsLower d :=
  isLower_of_mem_lowerAfter hd

theorem lowerAfter_of_forall {before cs : List Char} (hlower : ∀ c ∈ cs, IsLower c) :
    lowerAfter before cs = cs := by
  induction cs generalizing before with
  | nil => rfl
  | cons c cs ih =>
      have hc := hlower c List.mem_cons_self
      rw [lowerAfter, if_neg hc.ne_sigma, hc.lowerChar_eq,
        ih fun d hd => hlower d (List.mem_cons_of_mem c hd)]
      rfl

/-- A text of such characters stays as it is. -/
theorem lower_of_forall {cs : List Char} (hlower : ∀ c ∈ cs, IsLower c) : lower cs = cs :=
  lowerAfter_of_forall hlower

/-- Lower case changes nothing more when it is taken once more. -/
@[simp] theorem lower_lower (cs : List Char) : lower (lower cs) = lower cs :=
  lower_of_forall fun _ hc => isLower_of_mem_lower hc

/-- An ASCII character before the small letters that is its own lower case. -/
structure IsSign (c : Char) : Prop where
  isLower : IsLower c
  isAscii : c.toNat ≤ 0x60

section Signs

variable {sign : Char} (hsign : IsSign sign)
include hsign

theorem mem_lowerChar_iff {c : Char} : sign ∈ lowerChar c ↔ sign = c := by
  constructor
  · intro hmem
    rw [lowerChar] at hmem
    split at hmem
    next =>
      have hboth : 0x60 < 'i'.toNat ∧ 0x60 < '\u0307'.toNat := by decide +kernel
      have hascii := hsign.isAscii
      rw [List.mem_cons, List.mem_singleton] at hmem
      obtain rfl | rfl := hmem <;> omega
    next =>
      rw [List.mem_singleton] at hmem
      by_cases hsame : lowerPoint c.toNat = c.toNat
      · rw [hmem, hsame, Char.ofNat_toNat]
      · have hletter := (lowerPoint_of_ne hsame).1
        have hascii := hsign.isAscii
        rw [hmem, toNat_ofNat_lowerPoint] at hascii
        omega
  · rintro rfl
    rw [hsign.isLower.lowerChar_eq]
    exact List.mem_cons_self

theorem ne_smallSigma (before after : List Char) : sign ≠ smallSigma before after := by
  have hboth : 0x60 < 'ς'.toNat ∧ 0x60 < 'σ'.toNat := by decide
  have hascii := hsign.isAscii
  rintro rfl
  rw [smallSigma] at hascii
  split at hascii <;> omega

theorem mem_lowerAfter_iff {before cs : List Char} :
    sign ∈ lowerAfter before cs ↔ sign ∈ cs := by
  induction cs generalizing before with
  | nil => rfl
  | cons c cs ih =>
      rw [lowerAfter]
      split
      next hsigma =>
        have hother : sign ≠ c := by
          rw [hsigma]
          exact hsign.isLower.ne_sigma
        rw [List.mem_cons, List.mem_cons, ih]
        simp only [hother, ne_smallSigma hsign, false_or]
      next =>
        rw [List.mem_append, List.mem_cons, mem_lowerChar_iff hsign, ih]

/-- A sign is in a text in lower case when it is in the text. -/
theorem mem_lower_iff {cs : List Char} : sign ∈ lower cs ↔ sign ∈ cs :=
  mem_lowerAfter_iff hsign

end Signs

/-- A sign that is neither a letter nor passed over between the letters of a word. -/
structure EndsWord (c : Char) : Prop where
  isLower : IsLower c
  notCased : isCased c = false
  notIgnorable : isIgnorable c = false

section Words

variable {sign : Char} (hends : EndsWord sign)
include hends

theorem meetsCased_append_singleton (cs : List Char) :
    meetsCased (cs ++ [sign]) = meetsCased cs := by
  induction cs with
  | nil => simp [meetsCased, hends.notIgnorable, hends.notCased]
  | cons c cs ih =>
      by_cases hpassed : isIgnorable c = true
      · simpa [meetsCased, hpassed] using ih
      · simp [meetsCased, hpassed]

theorem lowerAfter_append_singleton (before cs : List Char) :
    lowerAfter before (cs ++ [sign]) = lowerAfter before cs ++ [sign] := by
  induction cs generalizing before with
  | nil =>
      rw [List.nil_append, lowerAfter_of_forall]
      · rfl
      · intro c hc
        rw [List.mem_singleton.mp hc]
        exact hends.isLower
  | cons c cs ih =>
      rw [List.cons_append, lowerAfter, lowerAfter]
      by_cases hsigma : c = 'Σ'
      · rw [if_pos hsigma, if_pos hsigma, smallSigma, smallSigma,
          meetsCased_append_singleton hends, ih]
        rfl
      · rw [if_neg hsigma, if_neg hsigma, ih, List.append_assoc]

/-- Such a sign behind a text does not change the lower case of the text. -/
theorem lower_append_singleton (cs : List Char) : lower (cs ++ [sign]) = lower cs ++ [sign] :=
  lowerAfter_append_singleton hends [] cs

theorem lowerAfter_before_append_singleton (before cs : List Char) :
    lowerAfter (before ++ [sign]) cs = lowerAfter before cs := by
  induction cs generalizing before with
  | nil => rfl
  | cons c cs ih =>
      rw [lowerAfter, lowerAfter, smallSigma, smallSigma, meetsCased_append_singleton hends,
        ← List.cons_append, ih]

/-- Such a sign before a text does not change the lower case of the text. -/
theorem lower_cons (cs : List Char) : lower (sign :: cs) = sign :: lower cs := by
  rw [lower, lowerAfter, if_neg hends.isLower.ne_sigma, hends.isLower.lowerChar_eq, lower]
  exact congrArg (sign :: ·) (lowerAfter_before_append_singleton hends [] cs)

end Words

end FilterSql.Text

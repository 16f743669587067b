/-
The patterns of LIKE.

In a pattern a percent sign stands for any characters, an underscore for one, and a character
after a backslash for itself; with nothing after its last backslash a pattern matches nothing.
A pattern without these signs matches itself, and one with them matches a text that is another
one and no longer.
-/
import Mathlib.Data.List.Infix
import FilterSql.Proofs.Sql.Truth

namespace FilterSql

/-- A sign that does not stand for itself in a pattern. -/
def IsPatternSign (c : Char) : Prop :=
  c = '%' ∨ c = '_' ∨ c = '\\'

instance (c : Char) : Decidable (IsPatternSign c) :=
  inferInstanceAs (Decidable (_ ∨ _))

/-- A text matches a pattern. -/
inductive Like : List Char → List Char → Prop
  | nil : Like [] []
  | skip {pattern text : List Char} (hrest : Like pattern text) : Like ('%' :: pattern) text
  | take {pattern text : List Char} (c : Char) (hrest : Like ('%' :: pattern) text) :
      Like ('%' :: pattern) (c :: text)
  | one {pattern text : List Char} (c : Char) (hrest : Like pattern text) :
      Like ('_' :: pattern) (c :: text)
  | escaped {pattern text : List Char} (c : Char) (hrest : Like pattern text) :
      Like ('\\' :: c :: pattern) (c :: text)
  | plain {pattern text : List Char} {c : Char} (hplain : ¬IsPatternSign c)
      (hrest : Like pattern text) : Like (c :: pattern) (c :: text)

/-- Whether every backslash of a pattern that escapes has a character after it. -/
def isComplete : List Char → Bool
  | [] => true
  | [c] => c != '\\'
  | c :: d :: pattern => if c = '\\' then isComplete pattern else isComplete (d :: pattern)

theorem isComplete_cons {c : Char} (hc : c ≠ '\\') (pattern : List Char) :
    isComplete (c :: pattern) = isComplete pattern := by
  cases pattern with
  | nil => simp [isComplete, hc]
  | cons d pattern => rw [isComplete, if_neg hc]

theorem isComplete_escaped (c : Char) (pattern : List Char) :
    isComplete ('\\' :: c :: pattern) = isComplete pattern := by
  rw [isComplete, if_pos rfl]

namespace Like

variable {pattern text : List Char}

/-- Nothing matches a pattern that ends in a lone backslash. -/
theorem isComplete (hlike : Like pattern text) : isComplete pattern = true := by
  induction hlike with
  | nil => rfl
  | skip _ ih => rwa [isComplete_cons (by decide)]
  | take _ _ ih => exact ih
  | one _ _ ih => rwa [isComplete_cons (by decide)]
  | escaped _ _ ih => rwa [isComplete_escaped]
  | plain hplain _ ih => rwa [isComplete_cons fun hslash => hplain (.inr (.inr hslash))]

theorem nil_iff : Like [] text ↔ text = [] := by
  constructor
  · rintro ⟨⟩
    rfl
  · rintro rfl
    exact nil

/-- A percent sign stands for what is before some end of a text. -/
theorem percent_iff : Like ('%' :: pattern) text ↔ ∃ rest, rest <:+ text ∧ Like pattern rest := by
  constructor
  · intro hlike
    generalize hwhole : '%' :: pattern = whole at hlike
    induction hlike with
    | skip hrest =>
        cases hwhole
        exact ⟨_, List.suffix_rfl, hrest⟩
    | take c _ ih =>
        obtain ⟨rest, hsuffix, hrest⟩ := ih hwhole
        exact ⟨rest, hsuffix.trans (List.suffix_cons c _), hrest⟩
    | plain hplain =>
        cases hwhole
        exact absurd (.inl rfl) hplain
    | nil | one | escaped => cases hwhole
  · rintro ⟨rest, ⟨before, rfl⟩, hrest⟩
    induction before with
    | nil => exact skip hrest
    | cons c before ih => exact take c ih

theorem plain_iff {c : Char} (hplain : ¬IsPatternSign c) :
    Like (c :: pattern) text ↔ ∃ rest, text = c :: rest ∧ Like pattern rest := by
  constructor
  · intro hlike
    cases hlike with
    | skip | take => exact absurd (.inl rfl) hplain
    | one => exact absurd (.inr (.inl rfl)) hplain
    | escaped => exact absurd (.inr (.inr rfl)) hplain
    | plain _ hrest => exact ⟨_, rfl, hrest⟩
  · rintro ⟨rest, rfl, hrest⟩
    exact plain hplain hrest

theorem one_iff {d : Char} : Like ('_' :: pattern) (d :: text) ↔ Like pattern text := by
  constructor
  · intro hlike
    cases hlike with
    | one _ hrest => exact hrest
    | plain hplain => exact absurd (.inr (.inl rfl)) hplain
  · exact one d

theorem escaped_iff {c d : Char} :
    Like ('\\' :: c :: pattern) (d :: text) ↔ c = d ∧ Like pattern text := by
  constructor
  · intro hlike
    cases hlike with
    | escaped _ hrest => exact ⟨rfl, hrest⟩
    | plain hplain => exact absurd (.inr (.inr rfl)) hplain
  · rintro ⟨rfl, hrest⟩
    exact escaped c hrest

/-- Characters that stand for themselves are found as they are. -/
theorem append_iff {word : List Char} (hplain : ∀ c ∈ word, ¬IsPatternSign c) :
    Like (word ++ pattern) text ↔ ∃ rest, text = word ++ rest ∧ Like pattern rest := by
  induction word generalizing text with
  | nil => simp
  | cons c word ih =>
      rw [List.forall_mem_cons] at hplain
      rw [List.cons_append, plain_iff hplain.1]
      simp only [ih hplain.2]
      constructor
      · rintro ⟨_, rfl, rest, rfl, hrest⟩
        exact ⟨rest, rfl, hrest⟩
      · rintro ⟨rest, rfl, hrest⟩
        exact ⟨word ++ rest, rfl, rest, rfl, hrest⟩

theorem self_iff (hplain : ∀ c ∈ pattern, ¬IsPatternSign c) :
    Like pattern text ↔ text = pattern := by
  rw [← List.append_nil pattern, append_iff hplain, List.append_nil]
  simp [nil_iff]

end Like

/-- On complete patterns the matcher decides which texts match. -/
theorem matchesPattern_iff {pattern text : List Char} (hcomplete : isComplete pattern = true) :
    matchesPattern pattern text = true ↔ Like pattern text := by
  fun_induction matchesPattern pattern text with
  | case1 text => rw [Like.nil_iff, List.isEmpty_iff]
  | case2 pattern text ih =>
      rw [isComplete_cons (by decide)] at hcomplete
      simp only [List.any_eq_true, List.mem_range, ih _ hcomplete, Like.percent_iff]
      constructor
      · rintro ⟨count, -, hrest⟩
        exact ⟨_, List.drop_suffix count text, hrest⟩
      · rintro ⟨rest, hsuffix, hrest⟩
        refine ⟨text.length - rest.length, by omega, ?_⟩
        rwa [← List.suffix_iff_eq_drop.mp hsuffix]
  | case3 pattern d text ih =>
      rw [isComplete_cons (by decide)] at hcomplete
      rw [Like.one_iff, ih hcomplete]
  | case4 c pattern d text ih =>
      rw [isComplete_escaped] at hcomplete
      rw [Like.escaped_iff, Bool.and_eq_true, beq_iff_eq, ih hcomplete]
  | case5 c pattern d text hpercent hunderscore hescape ih =>
      have hslash : c ≠ '\\' := by
        rintro rfl
        cases pattern with
        | nil => cases hcomplete
        | cons e pattern => exact hescape e pattern rfl rfl
      have hplain : ¬IsPatternSign c := by
        rintro (hsign | hsign | hsign)
        · exact hpercent hsign
        · exact hunderscore hsign
        · exact hslash hsign
      rw [isComplete_cons hslash] at hcomplete
      rw [Like.plain_iff hplain, Bool.and_eq_true, beq_iff_eq, ih hcomplete]
      constructor
      · rintro ⟨rfl, hrest⟩
        exact ⟨text, rfl, hrest⟩
      · rintro ⟨rest, hsame, hrest⟩
        cases hsame
        exact ⟨rfl, hrest⟩
  | case6 c pattern hpercent =>
      refine iff_of_false Bool.false_ne_true fun hlike => ?_
      cases hlike
      exact hpercent rfl

instance (pattern text : List Char) : Decidable (Like pattern text) :=
  decidable_of_iff (isComplete pattern = true ∧ matchesPattern pattern text = true) <| by
    constructor
    · rintro ⟨hcomplete, hmatches⟩
      exact (matchesPattern_iff hcomplete).mp hmatches
    · intro hlike
      exact ⟨hlike.isComplete, (matchesPattern_iff hlike.isComplete).mpr hlike⟩

/-- Some other character for a percent sign and for an underscore. -/
def standIn (c : Char) : Char :=
  if c = '%' ∨ c = '_' then '-' else c

/-- A text that matches a pattern, and the rest of one with a percent sign after it. -/
def sample : List Char → List Char
  | [] => []
  | [c] => [if c = '\\' then '%' else standIn c]
  | c :: d :: pattern =>
      if c = '\\' then d :: sample pattern else standIn c :: sample (d :: pattern)

section Sample

variable {pattern : List Char}

theorem sample_cons {c : Char} (hc : c ≠ '\\') (pattern : List Char) :
    sample (c :: pattern) = standIn c :: sample pattern := by
  cases pattern with
  | nil => simp [sample, hc]
  | cons d pattern => rw [sample, if_neg hc]

theorem sample_escaped (c : Char) (pattern : List Char) :
    sample ('\\' :: c :: pattern) = c :: sample pattern := by
  rw [sample, if_pos rfl]

theorem Like.standIn_cons {c : Char} (hc : c ≠ '\\') {text : List Char}
    (hrest : Like pattern text) : Like (c :: pattern) (standIn c :: text) := by
  by_cases hpercent : c = '%'
  · rw [hpercent]
    exact take _ (skip hrest)
  · by_cases hunderscore : c = '_'
    · rw [hunderscore]
      exact one _ hrest
    · have hplain : ¬IsPatternSign c := by
        rintro (hsign | hsign | hsign)
        · exact hpercent hsign
        · exact hunderscore hsign
        · exact hc hsign
      rw [standIn, if_neg (not_or.mpr ⟨hpercent, hunderscore⟩)]
      exact plain hplain hrest

/-- A pattern is read in steps of one character, or two where the first is a backslash. -/
theorem escape_induction {motive : List Char → Prop} (nil : motive []) (slash : motive ['\\'])
    (cons : ∀ c pattern, c ≠ '\\' → motive pattern → motive (c :: pattern))
    (escaped : ∀ c pattern, motive pattern → motive ('\\' :: c :: pattern))
    (pattern : List Char) : motive pattern := by
  induction pattern using sample.induct with
  | case1 => exact nil
  | case2 c =>
      by_cases hc : c = '\\'
      · rw [hc]
        exact slash
      · exact cons c [] hc nil
  | case3 d pattern ih => exact escaped d pattern ih
  | case4 c d pattern hc ih => exact cons c (d :: pattern) hc ih

/-- With a percent sign after it every pattern has a text that matches. -/
theorem Like.sample_append_percent (pattern : List Char) :
    Like (pattern ++ ['%']) (sample pattern) := by
  induction pattern using escape_induction with
  | nil => exact skip nil
  | slash => exact escaped '%' nil
  | cons c pattern hc ih =>
      rw [sample_cons hc]
      exact standIn_cons hc ih
  | escaped c pattern ih =>
      rw [sample_escaped]
      exact escaped c ih

theorem Like.sample_of_isComplete (hcomplete : FilterSql.isComplete pattern = true) :
    Like pattern (sample pattern) := by
  induction pattern using escape_induction with
  | nil => exact nil
  | slash => cases hcomplete
  | cons c pattern hc ih =>
      rw [isComplete_cons hc] at hcomplete
      rw [sample_cons hc]
      exact standIn_cons hc (ih hcomplete)
  | escaped c pattern ih =>
      rw [isComplete_escaped] at hcomplete
      rw [sample_escaped]
      exact escaped c (ih hcomplete)

theorem length_sample_le (pattern : List Char) : (sample pattern).length ≤ pattern.length := by
  induction pattern using escape_induction with
  | nil | slash => exact Nat.le_refl _
  | cons c pattern hc ih =>
      rw [sample_cons hc, List.length_cons, List.length_cons]
      omega
  | escaped c pattern ih =>
      simp only [sample_escaped, List.length_cons]
      omega

/-- A pattern that is the text has no signs of its own. -/
theorem not_isPatternSign_of_sample_eq (hsame : sample pattern = pattern) :
    ∀ c ∈ pattern, ¬IsPatternSign c := by
  induction pattern using escape_induction with
  | nil => exact List.forall_mem_nil _
  | slash => cases hsame
  | cons c pattern hc ih =>
      rw [sample_cons hc, List.cons.injEq] at hsame
      obtain ⟨hhead, hrest⟩ := hsame
      refine List.forall_mem_cons.mpr ⟨?_, ih hrest⟩
      rintro (rfl | rfl | hslash)
      · cases hhead
      · cases hhead
      · exact hc hslash
  | escaped c pattern =>
      have hlength := length_sample_le pattern
      have hsameLength := congrArg List.length hsame
      rw [sample_escaped] at hsameLength
      simp only [List.length_cons] at hsameLength
      omega

/-- The text has the characters of the pattern and two signs. -/
theorem of_mem_sample {P : Char → Prop} (hdash : P '-') (hpercent : P '%')
    (hpattern : ∀ c ∈ pattern, P c) : ∀ c ∈ sample pattern, P c := by
  induction pattern using escape_induction with
  | nil => exact List.forall_mem_nil _
  | slash => exact List.forall_mem_singleton.mpr hpercent
  | cons c pattern hc ih =>
      rw [List.forall_mem_cons] at hpattern
      rw [sample_cons hc, List.forall_mem_cons]
      refine ⟨?_, ih hpattern.2⟩
      rw [standIn]
      split
      · exact hdash
      · exact hpattern.1
  | escaped c pattern ih =>
      simp only [List.forall_mem_cons] at hpattern
      rw [sample_escaped, List.forall_mem_cons]
      exact ⟨hpattern.2.1, ih hpattern.2.2⟩

end Sample

end FilterSql

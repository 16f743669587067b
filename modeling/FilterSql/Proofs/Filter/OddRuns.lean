/-
Where the tokens of a filter value cannot be read.

Bars and ampersands are read in pairs.  All other characters leave them alone, so a text fails
exactly where it has an odd number of bars or of ampersands side by side, and the last one of
the first such run, which no other is left for, is to blame.
-/
import Mathlib.Data.Nat.Find
import FilterSql.Proofs.Filter.Tokens
import FilterSql.Proofs.Text.Runs

namespace FilterSql

/-- A bar or an ampersand. -/
def IsOperatorSign (c : Char) : Prop :=
  c = '|' ∨ c = '&'

instance (c : Char) : Decidable (IsOperatorSign c) :=
  inferInstanceAs (Decidable (c = '|' ∨ c = '&'))

/-- After a part of a text stands a run of one sign, an odd number of times. -/
structure IsOddRun (cs before run : List Char) (sign : Char) : Prop where
  isSign : IsOperatorSign sign
  odd : run.length % 2 = 1
  isRun : ∃ after, cs = before ++ (run ++ after) ∧ Text.IsRun (· == sign) before run after

/-- No odd run of a text starts before this one. -/
structure IsFirstOddRun (cs before run : List Char) (sign : Char) : Prop where
  isOddRun : IsOddRun cs before run sign
  first : ∀ other otherRun otherSign, IsOddRun cs other otherRun otherSign →
    before.length ≤ other.length

theorem exists_isFirstOddRun {cs before run : List Char} {sign : Char}
    (hodd : IsOddRun cs before run sign) :
    ∃ before run sign, IsFirstOddRun cs before run sign := by
  classical
  have hsome : ∃ length before run sign, IsOddRun cs before run sign ∧ before.length = length :=
    ⟨_, _, _, _, hodd, rfl⟩
  obtain ⟨first, firstRun, firstSign, hfirst, hlength⟩ := Nat.find_spec hsome
  refine ⟨first, firstRun, firstSign, hfirst, ?_⟩
  intro other otherRun otherSign hother
  rw [hlength]
  exact Nat.find_min' hsome ⟨other, otherRun, otherSign, hother, rfl⟩

section Block

variable {c : Char} {count : Nat} {rest : List Char} (hrest : rest.head? ≠ some c)
  {before run : List Char} {sign : Char}
include hrest

/-- An odd run is the block at the front, or comes after it. -/
theorem isOddRun_append_iff :
    IsOddRun (List.replicate (count + 1) c ++ rest) before run sign ↔
      (before = [] ∧ sign = c ∧ run = List.replicate (count + 1) c ∧
        IsOperatorSign c ∧ count % 2 = 0) ∨
      ∃ between, before = List.replicate (count + 1) c ++ between ∧
        IsOddRun rest between run sign := by
  constructor
  · rintro ⟨hsign, hodd, hrun⟩
    rcases (Text.exists_isRun_iff hrest).mp hrun with ⟨rfl, rfl, rfl⟩ | ⟨between, rfl, hafter⟩
    · rw [List.length_replicate] at hodd
      exact Or.inl ⟨rfl, rfl, rfl, hsign, by omega⟩
    · exact Or.inr ⟨between, rfl, hsign, hodd, hafter⟩
  · rintro (⟨rfl, rfl, rfl, hsign, heven⟩ | ⟨between, rfl, hsign, hodd, hafter⟩)
    · refine ⟨hsign, ?_, (Text.exists_isRun_iff hrest).mpr (Or.inl ⟨rfl, rfl, rfl⟩)⟩
      rw [List.length_replicate]
      omega
    · exact ⟨hsign, hodd, (Text.exists_isRun_iff hrest).mpr (Or.inr ⟨between, rfl, hafter⟩)⟩

/-- An odd block of a sign at the front is the first odd run. -/
theorem isFirstOddRun_block_iff (hsign : IsOperatorSign c) (heven : count % 2 = 0) :
    IsFirstOddRun (List.replicate (count + 1) c ++ rest) before run sign ↔
      before = [] ∧ sign = c ∧ run = List.replicate (count + 1) c := by
  have hblock : IsOddRun (List.replicate (count + 1) c ++ rest) []
      (List.replicate (count + 1) c) c :=
    (isOddRun_append_iff hrest).mpr (Or.inl ⟨rfl, rfl, rfl, hsign, heven⟩)
  constructor
  · rintro ⟨hodd, hfirst⟩
    have hbefore : before = [] := List.length_eq_zero_iff.mp (Nat.le_zero.mp (hfirst _ _ _ hblock))
    rcases (isOddRun_append_iff hrest).mp hodd with ⟨-, hc, hrun, -, -⟩ | ⟨between, hmore, -⟩
    · exact ⟨hbefore, hc, hrun⟩
    · rw [hbefore] at hmore
      simp at hmore
  · rintro ⟨rfl, rfl, rfl⟩
    exact ⟨hblock, fun _ _ _ _ => Nat.zero_le _⟩

/-- After any other block the first odd run is that of the rest. -/
theorem isFirstOddRun_append_iff (hblock : ¬(IsOperatorSign c ∧ count % 2 = 0)) :
    IsFirstOddRun (List.replicate (count + 1) c ++ rest) before run sign ↔
      ∃ between, before = List.replicate (count + 1) c ++ between ∧
        IsFirstOddRun rest between run sign := by
  have hiff : ∀ {before run sign},
      IsOddRun (List.replicate (count + 1) c ++ rest) before run sign ↔
        ∃ between, before = List.replicate (count + 1) c ++ between ∧
          IsOddRun rest between run sign := by
    intro before run sign
    rw [isOddRun_append_iff hrest, or_iff_right]
    exact fun hfront => hblock hfront.2.2.2
  constructor
  · rintro ⟨hodd, hfirst⟩
    obtain ⟨between, rfl, hlater⟩ := hiff.mp hodd
    refine ⟨between, rfl, hlater, fun other otherRun otherSign hother => ?_⟩
    have hle := hfirst _ _ _ (hiff.mpr ⟨other, rfl, hother⟩)
    rw [List.length_append, List.length_append] at hle
    omega
  · rintro ⟨between, rfl, hodd, hfirst⟩
    refine ⟨hiff.mpr ⟨between, rfl, hodd⟩, fun other otherRun otherSign hother => ?_⟩
    obtain ⟨more, rfl, hmore⟩ := hiff.mp hother
    have hle := hfirst _ _ _ hmore
    rw [List.length_append, List.length_append]
    omega

end Block

section Reading

variable {position : Nat} {reason : ParseError}

/-- The value at the front may be passed over, if there is one. -/
theorem tokensFrom_dropWhile_eq_error_iff (cs : List Char) :
    tokensFrom position cs = .error reason ↔
      tokensFrom (position + byteLength (cs.takeWhile isValueChar))
        (cs.dropWhile isValueChar) = .error reason := by
  have hcs : cs.takeWhile isValueChar ++ cs.dropWhile isValueChar = cs :=
    List.takeWhile_append_dropWhile
  have hrun : ∀ c ∈ cs.takeWhile isValueChar, isValueChar c = true :=
    fun c hc => List.mem_takeWhile_imp hc
  cases htake : cs.takeWhile isValueChar with
  | nil =>
      rw [htake, List.nil_append] at hcs
      rw [hcs]
      rfl
  | cons first others =>
      rw [htake] at hcs hrun
      conv_lhs => rw [← hcs, tokensFrom_value hrun (endsValue_dropWhile cs), map_eq_error_iff]

/-- A character that is no sign may be passed over. -/
theorem tokensFrom_cons_eq_error_iff {c : Char} (hc : ¬IsOperatorSign c) (cs : List Char) :
    tokensFrom position (c :: cs) = .error reason ↔
      tokensFrom (position + c.utf8Size) cs = .error reason := by
  by_cases hblank : Text.isAsciiBlank c = true
  · rw [tokensFrom_blank hblank, utf8Size_of_isAsciiBlank hblank]
  · by_cases hparen : c = '(' ∨ c = ')'
    · rcases hparen with rfl | rfl <;> (rw [tokensFrom, map_eq_error_iff]; rfl)
    · have hvalue : isValueChar c = true := by
        rw [IsOperatorSign, not_or] at hc
        rw [not_or] at hparen
        simp [isValueChar, hblank, hc, hparen]
      -- The value that starts with the character ends where the one after it does.
      rw [tokensFrom_dropWhile_eq_error_iff (c :: cs), tokensFrom_dropWhile_eq_error_iff cs,
        List.takeWhile_cons_of_pos hvalue, List.dropWhile_cons_of_pos hvalue, byteLength,
        Nat.add_assoc]

theorem tokensFrom_replicate_eq_error_iff {c : Char} (hc : ¬IsOperatorSign c) (count : Nat)
    (rest : List Char) :
    tokensFrom position (List.replicate count c ++ rest) = .error reason ↔
      tokensFrom (position + byteLength (List.replicate count c)) rest = .error reason := by
  induction count generalizing position with
  | zero => rfl
  | succ count ih =>
      rw [List.replicate_succ, List.cons_append, tokensFrom_cons_eq_error_iff hc, ih, byteLength,
        Nat.add_assoc]

/-- A pair of signs is a token. -/
theorem tokensFrom_pair_eq_error_iff {c : Char} (hc : IsOperatorSign c) (rest : List Char) :
    tokensFrom position (c :: c :: rest) = .error reason ↔
      tokensFrom (position + byteLength [c, c]) rest = .error reason := by
  rcases hc with rfl | rfl <;> (rw [tokensFrom, map_eq_error_iff]; rfl)

theorem tokensFrom_pairs_eq_error_iff {c : Char} (hc : IsOperatorSign c) (count : Nat)
    (rest : List Char) :
    tokensFrom position (List.replicate (2 * count) c ++ rest) = .error reason ↔
      tokensFrom (position + byteLength (List.replicate (2 * count) c)) rest = .error reason := by
  induction count generalizing position with
  | zero => rfl
  | succ count ih =>
      have hpair :
          List.replicate (2 * (count + 1)) c = [c, c] ++ List.replicate (2 * count) c := rfl
      rw [hpair, List.append_assoc, byteLength_append, ← Nat.add_assoc, ← ih]
      exact tokensFrom_pair_eq_error_iff hc _

/-- A sign without a second one is refused. -/
theorem tokensFrom_single {c : Char} (hc : IsOperatorSign c) {rest : List Char}
    (hrest : rest.head? ≠ some c) :
    tokensFrom position (c :: rest) = .error (.unexpectedToken (String.singleton c) position) := by
  rcases hc with rfl | rfl
  all_goals
    cases rest with
    | nil => simp [tokensFrom, Text.isAsciiBlank]
    | cons d rest =>
        have hother : d ≠ _ := fun hsame => hrest (congrArg some hsame)
        simp [tokensFrom, Text.isAsciiBlank, hother]

/-- A block passes unless it is an odd one of a sign. -/
theorem tokensFrom_block_eq_error_iff {c : Char} {count : Nat}
    (hblock : ¬(IsOperatorSign c ∧ count % 2 = 0)) (rest : List Char) :
    tokensFrom position (List.replicate (count + 1) c ++ rest) = .error reason ↔
      tokensFrom (position + byteLength (List.replicate (count + 1) c)) rest = .error reason := by
  by_cases hc : IsOperatorSign c
  · obtain ⟨pairs, hpairs⟩ : ∃ pairs, count + 1 = 2 * pairs :=
      ⟨(count + 1) / 2, by have := not_and.mp hblock hc; omega⟩
    rw [hpairs]
    exact tokensFrom_pairs_eq_error_iff hc pairs rest
  · exact tokensFrom_replicate_eq_error_iff hc (count + 1) rest

theorem tokensFrom_oddBlock_eq_error_iff {c : Char} {count : Nat} (hc : IsOperatorSign c)
    (heven : count % 2 = 0) {rest : List Char} (hrest : rest.head? ≠ some c) :
    tokensFrom position (List.replicate (count + 1) c ++ rest) = .error reason ↔
      reason = .unexpectedToken (String.singleton c)
        (position + byteLength (List.replicate count c)) := by
  obtain ⟨pairs, rfl⟩ : ∃ pairs, count = 2 * pairs := ⟨count / 2, by omega⟩
  rw [List.replicate_succ', List.append_assoc, tokensFrom_pairs_eq_error_iff hc,
    List.singleton_append, tokensFrom_single hc hrest, Except.error.injEq, eq_comm]

/-- Reading fails at the last sign of the first odd run, and where there is none it does not. -/
theorem tokensFrom_eq_error_iff (cs : List Char) :
    tokensFrom position cs = .error reason ↔
      ∃ before run sign, IsFirstOddRun cs before run sign ∧
        reason = .unexpectedToken (String.singleton sign)
          (position + byteLength (before ++ run.dropLast)) := by
  induction cs using Text.induction_on_blocks generalizing position with
  | nil =>
      rw [tokensFrom]
      constructor
      · rintro ⟨⟩
      · rintro ⟨before, run, sign, hfirst, -⟩
        obtain ⟨after, hcs, hrun⟩ := hfirst.isOddRun.isRun
        have hnil := List.append_eq_nil_iff.mp (List.append_eq_nil_iff.mp hcs.symm).2
        exact absurd hnil.1 hrun.ne_nil
  | block c count rest hrest ih =>
      by_cases hblock : IsOperatorSign c ∧ count % 2 = 0
      · simp only [tokensFrom_oddBlock_eq_error_iff hblock.1 hblock.2 hrest,
          isFirstOddRun_block_iff hrest hblock.1 hblock.2]
        constructor
        · rintro rfl
          exact ⟨_, _, _, ⟨rfl, rfl, rfl⟩, by simp⟩
        · rintro ⟨before, run, sign, ⟨rfl, rfl, rfl⟩, rfl⟩
          simp
      · have hplace : ∀ between tail : List Char,
            position + byteLength (List.replicate (count + 1) c) + byteLength (between ++ tail) =
              position + byteLength (List.replicate (count + 1) c ++ between ++ tail) := by
          intro between tail
          rw [List.append_assoc, byteLength_append (List.replicate (count + 1) c), Nat.add_assoc]
        simp only [tokensFrom_block_eq_error_iff hblock, isFirstOddRun_append_iff hrest hblock, ih,
          hplace]
        constructor
        · rintro ⟨between, run, sign, hfirst, rfl⟩
          exact ⟨_, run, sign, ⟨between, rfl, hfirst⟩, rfl⟩
        · rintro ⟨before, run, sign, ⟨between, rfl, hfirst⟩, rfl⟩
          exact ⟨between, run, sign, hfirst, rfl⟩

end Reading

/-- The tokens of a text cannot be read exactly where bars or ampersands stand an odd number of
times side by side, and the error is then the last sign of the first such run. -/
theorem tokens_eq_error_iff (raw : String) :
    ((∃ reason, tokens raw = .error reason) ↔
      ∃ before run sign, IsOddRun raw.toList before run sign) ∧
    ∀ reason, tokens raw = .error reason ↔
      ∃ before run sign, IsFirstOddRun raw.toList before run sign ∧
        reason = .unexpectedToken (String.singleton sign)
          (byteLength (before ++ run.dropLast)) := by
  have hfails : ∀ reason, tokens raw = .error reason ↔
      ∃ before run sign, IsFirstOddRun raw.toList before run sign ∧
        reason = .unexpectedToken (String.singleton sign)
          (byteLength (before ++ run.dropLast)) := by
    intro reason
    rw [tokens, tokensFrom_eq_error_iff]
    simp only [Nat.zero_add]
  refine ⟨?_, hfails⟩
  constructor
  · rintro ⟨reason, hreason⟩
    obtain ⟨before, run, sign, hfirst, -⟩ := (hfails reason).mp hreason
    exact ⟨before, run, sign, hfirst.isOddRun⟩
  · rintro ⟨before, run, sign, hodd⟩
    obtain ⟨before, run, sign, hfirst⟩ := exists_isFirstOddRun hodd
    exact ⟨_, (hfails _).mpr ⟨before, run, sign, hfirst, rfl⟩⟩

/-- Four bars are two pairs; of the five ampersands the last one is left. -/
example : tokens "ü||||b && (c &&&&& d |e" = .error (.unexpectedToken "&" 18) := by
  decide +kernel

end FilterSql

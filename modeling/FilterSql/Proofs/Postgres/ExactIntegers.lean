/-
Numbers bound as integers.

A value may stand for a number: an integer for itself, a finite double for its exact value, a
text for the integer that it writes.  Bound as an integer type it becomes the bytes of exactly
this number, the most significant first and in two's complement, and where the number is no
integer or the type has no place for it the value is refused.  Only a double past the 64-bit
integers is neither refused nor kept: as the widest type it becomes the end of their range.
-/
import Mathlib.Tactic.Linarith
import FilterSql.Postgres.Bind
import FilterSql.Proofs.Number.Digits
import FilterSql.Proofs.Number.ExactValue
import FilterSql.Proofs.Postgres.Bytes

namespace FilterSql

/-- The number that a value stands for. -/
inductive Value.Denotes : Value → ℚ → Prop
  | int (n : Int64) : Denotes (.int n) n.toInt
  | float {x : Binary64} (hfinite : x.isFinite = true) : Denotes (.float x) x.value
  | text {s : String} {n : Int} (hwrites : Number.Writes (Text.trim s.toList) n) :
      Denotes (.string s) n

/-- A value is a double. -/
def Value.IsDouble : Value → Prop
  | .float _ => True
  | _ => False

namespace Postgres

/-- An integer that has a place in some bytes, one bit of which is for the sign. -/
def InWidth (width : Nat) (n : Int) : Prop :=
  -2 ^ (8 * width - 1) ≤ n ∧ n < 2 ^ (8 * width - 1)

instance (width : Nat) (n : Int) : Decidable (InWidth width n) :=
  inferInstanceAs (Decidable (_ ∧ _))

/-- A value is bound as exactly the integer that a number is, and refused where the number is
no integer that the type has a place for. -/
structure BindsExactly (value : Value) (type : SqlType) (width : Nat) (q : ℚ) : Prop where
  bound : ∀ n : Int, (n : ℚ) = q → InWidth width n →
    ∃ bytes, bind value type = .ok (some bytes) ∧ Bytes.toInt? width bytes = some n
  refused : (¬∃ n : Int, (n : ℚ) = q ∧ InWidth width n) →
    ∃ reason, bind value type = .error reason

variable {value : Value} {type : SqlType} {width : Nat} {q : ℚ}

theorem integerWidth?_cases (hwidth : type.integerWidth? = some width) :
    type = .int2 ∧ width = 2 ∨ type = .int4 ∧ width = 4 ∨ type = .int8 ∧ width = 8 := by
  cases type <;> cases hwidth <;> decide

theorem bindInWidth_eq (hwidth : type.integerWidth? = some width) (n : Int) :
    bindInWidth n width =
      if InWidth width n then .ok (Bytes.ofInt width n) else .error .integerOutOfRange := by
  have hhalf : ((Nat.pow 256 width / 2 : Nat) : Int) = 2 ^ (8 * width - 1) := by
    obtain ⟨-, rfl⟩ | ⟨-, rfl⟩ | ⟨-, rfl⟩ := integerWidth?_cases hwidth <;> rfl
  refine if_congr ?_ rfl rfl
  rw [hhalf]
  rfl

theorem toInt?_ofInt_of_inWidth (hwidth : type.integerWidth? = some width) {n : Int}
    (hn : InWidth width n) : Bytes.toInt? width (Bytes.ofInt width n) = some n := by
  obtain ⟨hlow, hhigh⟩ := hn
  obtain ⟨-, rfl⟩ | ⟨-, rfl⟩ | ⟨-, rfl⟩ := integerWidth?_cases hwidth
  all_goals exact Bytes.toInt?_ofInt (by omega) (by omega)

/-- What is bound as an integer is bound exactly. -/
theorem bindsExactly_of_bindInWidth (hwidth : type.integerWidth? = some width) {n : Int}
    (hbind : bind value type = (bindInWidth n width).map some) (hn : (n : ℚ) = q) :
    BindsExactly value type width q := by
  rw [bindInWidth_eq hwidth] at hbind
  constructor
  · intro m hm hfits
    have hsame : m = n := Int.cast_injective (hm.trans hn.symm)
    rw [hsame] at hfits ⊢
    rw [if_pos hfits] at hbind
    exact ⟨_, hbind, toInt?_ofInt_of_inWidth hwidth hfits⟩
  · intro hnone
    have hout : ¬InWidth width n := fun hfits => hnone ⟨n, hn, hfits⟩
    rw [if_neg hout] at hbind
    exact ⟨_, hbind⟩

theorem bindsExactly_of_error {reason : BindError} (hbind : bind value type = .error reason)
    (hnone : ∀ n : Int, (n : ℚ) = q → ¬InWidth width n) : BindsExactly value type width q := by
  constructor
  · intro n hn hfits
    exact absurd hfits (hnone n hn)
  · intro _
    exact ⟨reason, hbind⟩

theorem bind_int_eq (hwidth : type.integerWidth? = some width) (n : Int64) :
    bind (.int n) type = (bindInWidth n.toInt width).map some := by
  obtain ⟨rfl, rfl⟩ | ⟨rfl, rfl⟩ | ⟨rfl, rfl⟩ := integerWidth?_cases hwidth <;> rfl

theorem bind_float_eq (hwidth : type.integerWidth? = some width) (x : Binary64) :
    bind (.float x) type =
      if x.isWhole then bind (.int x.toInt64) type else .error (.notWhole x type) := by
  obtain ⟨rfl, rfl⟩ | ⟨rfl, rfl⟩ | ⟨rfl, rfl⟩ := integerWidth?_cases hwidth
  all_goals
    show (bindFloat x _).map some = _
    unfold bindFloat
    cases x.isWhole <;> rfl

theorem bind_string_eq (hwidth : type.integerWidth? = some width) (s : String) :
    bind (.string s) type =
      match Number.readInt64? (Text.trim s.toList) with
      | some n => bind (.int n) type
      | none => .error .noInteger := by
  obtain ⟨rfl, rfl⟩ | ⟨rfl, rfl⟩ | ⟨rfl, rfl⟩ := integerWidth?_cases hwidth
  all_goals
    show (bindText s _).map some = _
    dsimp only [bindText]
    cases Number.readInt64? (Text.trim s.toList) <;> rfl

/-- No integer type has a place for more than 64 bits. -/
theorem inWidth_eight (hwidth : type.integerWidth? = some width) {n : Int}
    (hn : InWidth width n) : InWidth 8 n := by
  obtain ⟨hlow, hhigh⟩ := hn
  constructor <;>
    obtain ⟨-, rfl⟩ | ⟨-, rfl⟩ | ⟨-, rfl⟩ := integerWidth?_cases hwidth <;> omega

/-- A text that writes an integer is bound as it. -/
theorem bindsExactly_string (hwidth : type.integerWidth? = some width) {s : String} {n : Int}
    (hwrites : Number.Writes (Text.trim s.toList) n) : BindsExactly (.string s) type width n := by
  have hbounded : Number.readBounded? Int64.minValue.toInt Int64.maxValue.toInt
      (Text.trim s.toList) = if InWidth 8 n then some n else none := by
    have hleast : Int64.minValue.toInt = -2 ^ 63 := rfl
    have hlargest : Int64.maxValue.toInt = 2 ^ 63 - 1 := rfl
    rw [Number.readBounded?, Number.readInt?_eq_some_iff.mpr hwrites, Option.filter_some, hleast,
      hlargest]
    refine if_congr ?_ rfl rfl
    simp only [InWidth, Bool.and_eq_true, decide_eq_true_eq]
    omega
  have hbind := bind_string_eq hwidth s
  rw [Number.readInt64?, hbounded] at hbind
  by_cases hfits : InWidth 8 n
  · rw [if_pos hfits] at hbind
    have htoInt : (Int64.ofInt n).toInt = n := by
      apply Int64.toInt_ofInt_of_le
      · exact hfits.1
      · exact hfits.2
    have hint := bind_int_eq hwidth (Int64.ofInt n)
    rw [htoInt] at hint
    exact bindsExactly_of_bindInWidth hwidth (hbind.trans hint) rfl
  · rw [if_neg hfits] at hbind
    apply bindsExactly_of_error hbind
    intro m hm hplace
    rw [Int.cast_injective hm] at hplace
    exact hfits (inWidth_eight hwidth hplace)

/-- A whole double within 64 bits, or for a type of fewer, is bound as its whole part. -/
theorem bindInWidth_toInt64 (hwidth : type.integerWidth? = some width) {x : Binary64}
    (hfinite : x.isFinite = true) (hkept : type = .int8 → InWidth 8 x.signedWholePart) :
    bindInWidth x.toInt64.toInt width = bindInWidth x.signedWholePart width := by
  rw [Binary64.toInt_toInt64 hfinite]
  by_cases hfits : InWidth 8 x.signedWholePart
  · obtain ⟨hlow, hhigh⟩ := hfits
    congr 1
    omega
  · -- The ends of the range of 64 bits have no place in fewer either.
    have hnarrow : type ≠ .int8 := fun htype => hfits (hkept htype)
    have hout : ∀ n : Int, ¬InWidth 8 n ∨ n = -2 ^ 63 ∨ n = 2 ^ 63 - 1 → ¬InWidth width n := by
      intro n hn hplace
      unfold InWidth at hn hplace
      obtain ⟨-, rfl⟩ | ⟨-, rfl⟩ | ⟨htype, -⟩ := integerWidth?_cases hwidth
      · omega
      · omega
      · exact hnarrow htype
    rw [bindInWidth_eq hwidth, bindInWidth_eq hwidth, if_neg, if_neg]
    · exact hout _ (.inl hfits)
    · apply hout
      unfold InWidth at hfits
      omega

theorem inWidth_signedWholePart_iff {x : Binary64} (hwhole : x.isWhole = true) :
    InWidth 8 x.signedWholePart ↔ -2 ^ 63 ≤ x.value ∧ x.value < 2 ^ 63 := by
  rw [Binary64.value_of_isWhole hwhole, InWidth]
  exact_mod_cast Iff.rfl

/-- As the widest type, a double past the 64-bit integers becomes the end of their range. -/
theorem bind_float_of_beyond {x : Binary64} (hfinite : x.isFinite = true)
    (hbeyond : ¬(-2 ^ 63 ≤ x.value ∧ x.value < 2 ^ 63)) :
    bind (.float x) .int8 =
      .ok (some (Bytes.ofInt 8 (if x.value < 0 then -2 ^ 63 else 2 ^ 63 - 1))) := by
  have hlarge : 2 ^ 53 ≤ |x.value| := by
    rw [le_abs]
    by_cases hlow : -2 ^ 63 ≤ x.value
    · have hhigh : 2 ^ 63 ≤ x.value := not_lt.mp fun hhigh => hbeyond ⟨hlow, hhigh⟩
      exact .inl (by linarith)
    · exact .inr (by linarith)
  have hwhole := Binary64.isWhole_of_le_abs hfinite hlarge
  have hout : ¬InWidth 8 x.signedWholePart :=
    fun hplace => hbeyond ((inWidth_signedWholePart_iff hwhole).mp hplace)
  have hsign : x.value < 0 ↔ x.signedWholePart < 0 := by
    rw [Binary64.value_of_isWhole hwhole]
    exact Int.cast_lt_zero
  have hend : x.toInt64.toInt = if x.value < 0 then -2 ^ 63 else 2 ^ 63 - 1 := by
    rw [Binary64.toInt_toInt64 hfinite, if_congr hsign rfl rfl]
    unfold InWidth at hout
    split <;> omega
  have hwidth : SqlType.int8.integerWidth? = some 8 := rfl
  rw [bind_float_eq hwidth, if_pos hwhole, bind_int_eq hwidth, bindInWidth_eq hwidth, hend, if_pos]
  · rfl
  · split <;> decide

/-- A double is bound exactly when 64 bits hold its value, or the type has fewer. -/
theorem bindsExactly_float_iff (hwidth : type.integerWidth? = some width) {x : Binary64}
    (hfinite : x.isFinite = true) :
    BindsExactly (.float x) type width x.value ↔
      (type = .int8 → -2 ^ 63 ≤ x.value ∧ x.value < 2 ^ 63) := by
  constructor
  · rintro hexact rfl
    by_contra hbeyond
    cases hwidth
    obtain ⟨reason, herror⟩ := hexact.refused <| by
      rintro ⟨n, hn, hlow, hhigh⟩
      rw [← hn] at hbeyond
      exact hbeyond ⟨by exact_mod_cast hlow, by exact_mod_cast hhigh⟩
    rw [bind_float_of_beyond hfinite hbeyond] at herror
    cases herror
  · intro hkept
    have hbind := bind_float_eq hwidth x
    by_cases hwhole : x.isWhole = true
    · have hplace : type = .int8 → InWidth 8 x.signedWholePart :=
        fun htype => (inWidth_signedWholePart_iff hwhole).mpr (hkept htype)
      rw [if_pos hwhole, bind_int_eq hwidth, bindInWidth_toInt64 hwidth hfinite hplace] at hbind
      exact bindsExactly_of_bindInWidth hwidth hbind (Binary64.value_of_isWhole hwhole).symm
    · rw [if_neg hwhole] at hbind
      apply bindsExactly_of_error hbind
      intro n hn _
      exact hwhole ((Binary64.isWhole_iff hfinite).mpr ⟨n, hn⟩)

/-- A value that stands for a number is bound as an integer exactly, or refused where the number
is no integer of the type, but for a double past the 64-bit integers as the widest type. -/
theorem bindsExactly_iff_of_denotes (hvalue : value.Denotes q)
    (hwidth : type.integerWidth? = some width) :
    BindsExactly value type width q ↔
      ¬(value.IsDouble ∧ type = .int8 ∧ ¬(-2 ^ 63 ≤ q ∧ q < 2 ^ 63)) := by
  cases hvalue with
  | int n =>
      exact iff_of_true (bindsExactly_of_bindInWidth hwidth (bind_int_eq hwidth n) rfl) fun h => h.1
  | float hfinite =>
      rw [bindsExactly_float_iff hwidth hfinite]
      rw [Value.IsDouble, true_and, not_and, not_not]
  | text hwrites => exact iff_of_true (bindsExactly_string hwidth hwrites) fun h => h.1

namespace ExactIntegers

/-- The least integer of 64 bits as a double. -/
def least : Binary64 := ⟨0xC3E0000000000000⟩

/-- The number that follows the largest integer of 64 bits, as a double. -/
def tooLarge : Binary64 := ⟨0x43E0000000000000⟩

theorem value_least : least.value = -2 ^ 63 := by
  rw [Binary64.value_eq]
  have hratio : least.ratio = (2 ^ 63, 1) := by decide +kernel
  have hsign : least.negative = true := by decide +kernel
  rw [hratio, hsign]
  norm_num

theorem value_tooLarge : tooLarge.value = 2 ^ 63 := by
  rw [Binary64.value_eq]
  have hratio : tooLarge.ratio = (2 ^ 63, 1) := by decide +kernel
  have hsign : tooLarge.negative = false := by decide +kernel
  rw [hratio, hsign]
  norm_num

/-- The double at the lower end of the range is bound as it is, and refused by four bytes. -/
theorem bindsExactly_least :
    (Value.float least).Denotes (-2 ^ 63) ∧
      BindsExactly (.float least) .int8 8 (-2 ^ 63) ∧
      BindsExactly (.float least) .int4 4 (-2 ^ 63) := by
  have hdenotes : (Value.float least).Denotes (-2 ^ 63) := by
    rw [← value_least]
    exact .float (by decide +kernel)
  refine ⟨hdenotes, ?_, ?_⟩
  · apply (bindsExactly_iff_of_denotes hdenotes rfl).mpr
    norm_num
  · apply (bindsExactly_iff_of_denotes hdenotes rfl).mpr
    rintro ⟨-, htype, -⟩
    cases htype

/-- The double above the upper end stands for a number that the type has no place for, and is
bound all the same, as the number before it. -/
theorem not_bindsExactly_tooLarge :
    (Value.float tooLarge).Denotes (2 ^ 63) ∧
      bind (.float tooLarge) .int8 = .ok (some (Bytes.ofInt 8 (2 ^ 63 - 1))) ∧
      ¬BindsExactly (.float tooLarge) .int8 8 (2 ^ 63) := by
  have hfinite : tooLarge.isFinite = true := by decide +kernel
  have hbeyond : ¬(-2 ^ 63 ≤ tooLarge.value ∧ tooLarge.value < 2 ^ 63) := by
    rw [value_tooLarge]
    norm_num
  have hbind := bind_float_of_beyond hfinite hbeyond
  have hwidth : SqlType.int8.integerWidth? = some 8 := rfl
  have hexact := bindsExactly_float_iff hwidth hfinite
  rw [value_tooLarge] at hbind hbeyond hexact
  refine ⟨?_, ?_, ?_⟩
  · rw [← value_tooLarge]
    exact .float hfinite
  · rw [hbind, if_neg (by norm_num)]
  · rw [hexact]
    exact fun hkept => hbeyond (hkept rfl)

end ExactIntegers

end Postgres

end FilterSql

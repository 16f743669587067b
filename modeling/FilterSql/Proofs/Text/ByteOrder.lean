/-
The order of texts is the order of their bytes.

A character of UTF-8 is a number in base 64, after a first byte that says how many bytes
follow it.  The first byte grows with their number, so the bytes of characters compare as the
characters do, and so do the bytes of texts.
-/
import Mathlib.Data.List.Lex
import Mathlib.Data.String.Basic

namespace FilterSql.Text

/-- The UTF-8 bytes of a text. -/
def bytes (s : String) : List UInt8 :=
  s.toUTF8.data.toList

theorem bytes_eq_flatMap (s : String) : bytes s = s.toList.flatMap String.utf8EncodeChar := by
  conv_lhs => rw [bytes, String.toUTF8_eq_toByteArray, ← String.ofList_toList (s := s)]
  rw [String.toByteArray_ofList, List.utf8Encode, List.toList_data_toByteArray]

/-- A number in base 64, its first digit shifted by `lead`, the `width` digits after it by 128. -/
def base64 (lead : Nat) : Nat → Nat → List UInt8
  | 0, n => [UInt8.ofNat (n + lead)]
  | width + 1, n => base64 lead width (n / 64) ++ [UInt8.ofNat (n % 64 + 128)]

theorem ofNat_lt_ofNat {m n : Nat} (hlt : m < n) (hn : n < 256) :
    UInt8.ofNat m < UInt8.ofNat n := by
  rw [UInt8.lt_iff_toNat_lt, UInt8.toNat_ofNat_of_lt' hn,
    UInt8.toNat_ofNat_of_lt' (Nat.lt_trans hlt hn)]
  exact hlt

theorem exists_base64_eq_cons (lead width n : Nat) :
    ∃ digits, base64 lead width n = UInt8.ofNat (n / 64 ^ width + lead) :: digits := by
  induction width generalizing n with
  | zero => exact ⟨[], by simp [base64]⟩
  | succ width ih =>
      obtain ⟨digits, hdigits⟩ := ih (n / 64)
      refine ⟨digits ++ [UInt8.ofNat (n % 64 + 128)], ?_⟩
      rw [base64, hdigits, Nat.div_div_eq_div_mul, Nat.pow_succ', List.cons_append]

/-- Of numbers with as many digits the smaller one comes first, whatever follows. -/
theorem base64_append_lt {lead width m n : Nat} (hlt : m < n) (hn : n / 64 ^ width + lead < 256)
    (first second : List UInt8) :
    base64 lead width m ++ first < base64 lead width n ++ second := by
  induction width generalizing m n first second with
  | zero =>
      rw [Nat.pow_zero, Nat.div_one] at hn
      rw [base64, base64, List.singleton_append, List.singleton_append, List.cons_lt_cons_iff]
      exact Or.inl (ofNat_lt_ofNat (by omega) hn)
  | succ width ih =>
      rw [base64, base64, List.append_assoc, List.append_assoc]
      by_cases hhigh : m / 64 < n / 64
      · apply ih hhigh
        rwa [Nat.div_div_eq_div_mul, ← Nat.pow_succ']
      · have hsame : m / 64 = n / 64 := by omega
        rw [hsame]
        apply List.append_left_lt
        rw [List.singleton_append, List.singleton_append, List.cons_lt_cons_iff]
        exact Or.inl (ofNat_lt_ofNat (by omega) (by omega))

/-- How many bytes follow the first one of a character. -/
def followers (n : Nat) : Nat :=
  if n ≤ 0x7F then 0 else if n ≤ 0x7FF then 1 else if n ≤ 0xFFFF then 2 else 3

/-- What the first byte of a character is shifted by. -/
def lead (n : Nat) : Nat :=
  if n ≤ 0x7F then 0 else if n ≤ 0x7FF then 0xC0 else if n ≤ 0xFFFF then 0xE0 else 0xF0

theorem toNat_val_lt (c : Char) : c.val.toNat < 0x110000 := by
  rcases c.valid with hlow | hhigh
  · exact Nat.lt_trans hlow (by decide)
  · exact hhigh.2

theorem utf8EncodeChar_eq_base64 (c : Char) :
    String.utf8EncodeChar c = base64 (lead c.val.toNat) (followers c.val.toNat) c.val.toNat := by
  have hbound := toNat_val_lt c
  generalize hn : c.val.toNat = n at hbound
  simp only [String.utf8EncodeChar, hn, lead, followers]
  split_ifs with hone htwo hthree
  · rfl
  · have hhead : n / 64 % 32 = n / 64 := by omega
    simp [base64, hhead]
  · have hhead : n / 4096 % 16 = n / 64 / 64 := by omega
    simp [base64, hhead]
  · have hhead : n / 262144 % 8 = n / 64 / 64 / 64 := by omega
    have hnext : n / 4096 = n / 64 / 64 := by omega
    simp [base64, hhead, hnext]

/-- More bytes follow the greater first byte. -/
theorem head_lt_head {m n : Nat} (hlt : m < n) (hapart : followers m ≠ followers n) :
    m / 64 ^ followers m + lead m < n / 64 ^ followers n + lead n := by
  simp only [followers, lead] at hapart ⊢
  split_ifs at hapart ⊢ <;> omega

theorem head_lt (n : Nat) (hn : n < 0x110000) : n / 64 ^ followers n + lead n < 256 := by
  simp only [followers, lead]
  split_ifs <;> omega

theorem utf8EncodeChar_append_lt {c d : Char} (hlt : c < d) (first second : List UInt8) :
    String.utf8EncodeChar c ++ first < String.utf8EncodeChar d ++ second := by
  have hval : c.val.toNat < d.val.toNat := hlt
  have hhead := head_lt d.val.toNat (toNat_val_lt d)
  rw [utf8EncodeChar_eq_base64, utf8EncodeChar_eq_base64]
  by_cases hsame : followers c.val.toNat = followers d.val.toNat
  · have hlead : lead c.val.toNat = lead d.val.toNat := by
      simp only [followers, lead] at hsame ⊢
      split_ifs at hsame ⊢ <;> first | rfl | omega
    rw [hsame, hlead]
    exact base64_append_lt hval hhead first second
  · obtain ⟨left, hleft⟩ := exists_base64_eq_cons (lead c.val.toNat) (followers c.val.toNat)
      c.val.toNat
    obtain ⟨right, hright⟩ := exists_base64_eq_cons (lead d.val.toNat) (followers d.val.toNat)
      d.val.toNat
    rw [hleft, hright, List.cons_append, List.cons_append, List.cons_lt_cons_iff]
    exact Or.inl (ofNat_lt_ofNat (head_lt_head hval hsame) hhead)

theorem flatMap_utf8EncodeChar_lt {first second : List Char} (hlt : first < second) :
    first.flatMap String.utf8EncodeChar < second.flatMap String.utf8EncodeChar := by
  induction hlt with
  | @nil d second =>
      obtain ⟨digits, hdigits⟩ := exists_base64_eq_cons (lead d.val.toNat)
        (followers d.val.toNat) d.val.toNat
      rw [List.flatMap_cons, utf8EncodeChar_eq_base64, hdigits]
      exact List.Lex.nil
  | cons _ ih =>
      rw [List.flatMap_cons, List.flatMap_cons]
      exact List.append_left_lt ih
  | rel hlt =>
      rw [List.flatMap_cons, List.flatMap_cons]
      exact utf8EncodeChar_append_lt hlt _ _

/-- Texts compare as their bytes do. -/
theorem bytes_lt_bytes_iff {first second : String} :
    bytes first < bytes second ↔ first < second := by
  have hmono : ∀ {left right : String}, left < right → bytes left < bytes right := by
    intro left right hlt
    rw [bytes_eq_flatMap, bytes_eq_flatMap]
    exact flatMap_utf8EncodeChar_lt (String.lt_iff_toList_lt.mp hlt)
  constructor
  · intro hbytes
    rcases lt_trichotomy first second with hlt | hsame | hback
    · exact hlt
    · rw [hsame] at hbytes
      exact absurd hbytes (List.lt_irrefl _)
    · exact absurd (hmono hback) (List.lt_asymm hbytes)
  · exact hmono

end FilterSql.Text

/-
Tokens in the bytes of a text.

The characters that tokens end at are ASCII, and no byte of another character is one of
theirs.  A walk over the bytes of a text that asks for these bytes alone therefore stops where
the walk over its characters does.  It finds the same tokens, each with its text and its span,
and it never cuts a text inside a character.
-/
import FilterSql.Proofs.Filter.Tokens
import FilterSql.Proofs.Text.ByteOrder

namespace FilterSql

/-- The byte of a blank between tokens. -/
def Text.isBlankByte (byte : UInt8) : Bool :=
  byte == 0x20 || byte == 0x09 || byte == 0x0a || byte == 0x0c || byte == 0x0d

/-- A token with its text and the bytes that it covers. -/
structure SpannedToken where
  kind : TokenKind
  lexeme : String
  start : Nat
  stop : Nat

/-- The token with its text and its span. -/
def Token.spanned (token : Token) : SpannedToken :=
  ⟨token.kind, token.lexeme, token.position, token.stop⟩

namespace ByteWalk

/-- The byte of a blank, a bar, an ampersand or a parenthesis. -/
def isDelimiter (byte : UInt8) : Bool :=
  byte == '|'.toUInt8 || byte == '&'.toUInt8 || byte == '('.toUInt8 || byte == ')'.toUInt8 ||
    Text.isBlankByte byte

/-- The text that bytes write; there is none where they begin or end inside a character. -/
def text? (bytes : List UInt8) : Option String :=
  String.fromUTF8? bytes.toByteArray

/-- The kind of the token that starts with a byte, by its text, and how many more bytes it has.
A bar or an ampersand without a second one starts none. -/
def front? (byte : UInt8) (rest : List UInt8) : Option ((String → TokenKind) × Nat) :=
  if byte = '|'.toUInt8 ∧ rest.head? = some '|'.toUInt8 then some (fun _ => .or, 1)
  else if byte = '&'.toUInt8 ∧ rest.head? = some '&'.toUInt8 then some (fun _ => .and, 1)
  else if byte = '('.toUInt8 then some (fun _ => .leftParen, 0)
  else if byte = ')'.toUInt8 then some (fun _ => .rightParen, 0)
  else if byte = '&'.toUInt8 ∨ byte = '|'.toUInt8 then none
  else some (.value, (rest.takeWhile fun byte => !isDelimiter byte).length)

/-- The tokens of bytes from a position on; nothing at all if one of them cuts a character. -/
def tokensFrom (position : Nat) :
    List UInt8 → Option (Except ParseError (List SpannedToken))
  | [] => some (.ok [])
  | byte :: rest =>
      if Text.isBlankByte byte then tokensFrom (position + 1) rest
      else
        match front? byte rest with
        | none => some (.error (.unexpectedToken (String.singleton (Char.ofUInt8 byte)) position))
        | some (kind, more) => do
            let lexeme ← text? (byte :: rest.take more)
            let stop := position + (1 + more)
            let token : SpannedToken := ⟨kind lexeme, lexeme, position, stop⟩
            (tokensFrom stop (rest.drop more)).map (Except.map (token :: ·))
termination_by bytes => bytes.length
decreasing_by all_goals simp only [List.length_cons, List.length_drop]; omega

/-- The tokens in the bytes of a text. -/
def tokens (raw : String) : Option (Except ParseError (List SpannedToken)) :=
  tokensFrom 0 (Text.bytes raw)

end ByteWalk

/-- The bytes of characters. -/
theorem length_flatMap_utf8EncodeChar (cs : List Char) :
    (cs.flatMap String.utf8EncodeChar).length = byteLength cs := by
  induction cs with
  | nil => rfl
  | cons c cs ih =>
      rw [List.flatMap_cons, List.length_append, String.length_utf8EncodeChar, ih, byteLength]

section Bytes

/-- The bytes of a number that needs more than one are no ASCII. -/
theorem Text.le_of_mem_base64 {lead width n : Nat} (hlead : 128 ≤ lead)
    (hhead : n / 64 ^ width + lead < 256) {byte : UInt8} (hbyte : byte ∈ base64 lead width n) :
    128 ≤ byte.toNat := by
  induction width generalizing n with
  | zero =>
      rw [Nat.pow_zero, Nat.div_one] at hhead
      rw [base64, List.mem_singleton] at hbyte
      rw [hbyte, UInt8.toNat_ofNat_of_lt' hhead]
      omega
  | succ width ih =>
      rw [base64, List.mem_append, List.mem_singleton] at hbyte
      rcases hbyte with hbyte | rfl
      · refine ih ?_ hbyte
        rwa [Nat.div_div_eq_div_mul, ← Nat.pow_succ']
      · have hsmall : n % 64 + 128 < 256 := by omega
        rw [UInt8.toNat_ofNat_of_lt' hsmall]
        omega

/-- A byte of a character is that of an ASCII character exactly when the two are the same. -/
theorem eq_toUInt8_iff {c d : Char} (hascii : d.toNat < 128) {byte : UInt8}
    (hbyte : byte ∈ String.utf8EncodeChar c) : byte = d.toUInt8 ↔ c = d := by
  have hdigit : d.toUInt8.toNat = d.toNat := Nat.mod_eq_of_lt (Nat.lt_trans hascii (by decide))
  rw [← UInt8.toNat_inj, hdigit, ← Char.toNat_inj]
  rw [Text.utf8EncodeChar_eq_base64] at hbyte
  by_cases hone : c.toNat ≤ 0x7F
  · have hlead : Text.lead c.val.toNat = 0 := if_pos hone
    have hfollowers : Text.followers c.val.toNat = 0 := if_pos hone
    rw [hlead, hfollowers, Text.base64, List.mem_singleton] at hbyte
    have hsame : byte.toNat = c.toNat := by
      rw [hbyte]
      exact UInt8.toNat_ofNat_of_lt' (Nat.lt_of_le_of_lt hone (by decide))
    rw [hsame]
  · have hlead : 128 ≤ Text.lead c.val.toNat := by
      have hlarge : ¬c.val.toNat ≤ 0x7F := hone
      rw [Text.lead, if_neg hlarge]
      split_ifs <;> decide
    have hlarge := Text.le_of_mem_base64 hlead (Text.head_lt _ (Text.toNat_val_lt c)) hbyte
    omega

theorem beq_toUInt8 {c : Char} {byte : UInt8} (hbyte : byte ∈ String.utf8EncodeChar c) (d : Char)
    (hascii : d.toNat < 128) : (byte == d.toUInt8) = (c == d) := by
  rw [Bool.eq_iff_iff, beq_iff_eq, beq_iff_eq]
  exact eq_toUInt8_iff hascii hbyte

theorem isBlankByte_eq {c : Char} {byte : UInt8} (hbyte : byte ∈ String.utf8EncodeChar c) :
    Text.isBlankByte byte = Text.isAsciiBlank c := by
  have hsame := beq_toUInt8 hbyte
  rw [Text.isAsciiBlank, ← hsame ' ' (by decide), ← hsame '\t' (by decide),
    ← hsame '\n' (by decide), ← hsame '\x0c' (by decide), ← hsame '\r' (by decide)]
  rfl

/-- The bytes that a value ends at are those of the characters that it ends at. -/
theorem isDelimiter_eq {c : Char} {byte : UInt8} (hbyte : byte ∈ String.utf8EncodeChar c) :
    (!ByteWalk.isDelimiter byte) = isValueChar c := by
  have hsame := beq_toUInt8 hbyte
  rw [isValueChar, ByteWalk.isDelimiter, isBlankByte_eq hbyte, hsame '|' (by decide),
    hsame '&' (by decide), hsame '(' (by decide), hsame ')' (by decide), Bool.or_comm]
  simp only [Bool.or_assoc]

/-- A walk over pieces stops where a walk over what they are made of does. -/
theorem takeWhile_flatMap {α β : Type} {pieces : α → List β} {p : β → Bool} {q : α → Bool}
    (hsome : ∀ a, pieces a ≠ []) (hsame : ∀ a, ∀ b ∈ pieces a, p b = q a) (as : List α) :
    (as.flatMap pieces).takeWhile p = (as.takeWhile q).flatMap pieces := by
  induction as with
  | nil => rfl
  | cons a as ih =>
      rw [List.flatMap_cons, List.takeWhile_cons]
      cases hq : q a with
      | true =>
          rw [List.takeWhile_append_of_pos fun b hb => (hsame a b hb).trans hq, ih]
          rfl
      | false =>
          obtain ⟨b, bs, hpieces⟩ := List.exists_cons_of_ne_nil (hsome a)
          have hb := hsame a b (hpieces ▸ List.mem_cons_self)
          rw [hpieces, List.cons_append, List.takeWhile_cons, hb, hq]
          rfl

theorem exists_utf8EncodeChar_eq_cons (c : Char) :
    ∃ byte bytes, String.utf8EncodeChar c = byte :: bytes := by
  apply List.exists_cons_of_ne_nil
  rw [← List.length_pos_iff, String.length_utf8EncodeChar]
  exact c.utf8Size_pos

/-- A text starts with the byte of an ASCII character exactly when it starts with the character. -/
theorem head?_flatMap_iff {d : Char} (hascii : d.toNat < 128) (cs : List Char) :
    (cs.flatMap String.utf8EncodeChar).head? = some d.toUInt8 ↔ cs.head? = some d := by
  cases cs with
  | nil => simp
  | cons c cs =>
      obtain ⟨byte, others, hbytes⟩ := exists_utf8EncodeChar_eq_cons c
      have hbyte := eq_toUInt8_iff hascii (hbytes ▸ List.mem_cons_self)
      rw [List.flatMap_cons, hbytes, List.cons_append, List.head?_cons, List.head?_cons,
        Option.some_inj, Option.some_inj, hbyte]

theorem text?_flatMap (cs : List Char) :
    ByteWalk.text? (cs.flatMap String.utf8EncodeChar) = some (String.ofList cs) := by
  have hbytes : (cs.flatMap String.utf8EncodeChar).toByteArray =
      (String.ofList cs).toByteArray := by
    rw [String.toByteArray_ofList]
    rfl
  rw [ByteWalk.text?, hbytes, String.fromUTF8?, dif_pos (String.ofList cs).isValidUTF8]
  rfl

end Bytes

namespace ByteWalk

variable {position : Nat}

theorem tokensFrom_blank {byte : UInt8} (hblank : Text.isBlankByte byte = true)
    (rest : List UInt8) : tokensFrom position (byte :: rest) = tokensFrom (position + 1) rest := by
  rw [tokensFrom, if_pos hblank]

theorem tokensFrom_refused {byte : UInt8} {rest : List UInt8}
    (hblank : Text.isBlankByte byte = false) (hfront : front? byte rest = none) :
    tokensFrom position (byte :: rest) =
      some (.error (.unexpectedToken (String.singleton (Char.ofUInt8 byte)) position)) := by
  rw [tokensFrom, hblank, hfront]
  rfl

/-- The walk finds a token whose bytes stand at the front, and goes on after them. -/
theorem tokensFrom_token (kind : TokenKind) (chars : List Char) (width : Nat)
    (ofText : String → TokenKind) {cs : List Char} {byte : UInt8} {others : List UInt8}
    {read : Except ParseError (List Token)}
    (hchars : kind.text.toList = chars) (hwidth : byteLength chars = width)
    (hbytes : chars.flatMap String.utf8EncodeChar = byte :: others)
    (hblank : Text.isBlankByte byte = false)
    (hfront : front? byte (others ++ cs.flatMap String.utf8EncodeChar) =
      some (ofText, others.length))
    (hkind : ofText kind.text = kind)
    (hrest : tokensFrom (position + width) (cs.flatMap String.utf8EncodeChar) =
      some (read.map (List.map Token.spanned))) :
    tokensFrom position ((chars ++ cs).flatMap String.utf8EncodeChar) =
      some ((read.map (⟨kind, position⟩ :: ·)).map (List.map Token.spanned)) := by
  subst hchars hwidth
  have htext : text? (byte :: others) = some kind.text := by
    rw [← hbytes, text?_flatMap, String.ofList_toList]
  have hlength : 1 + others.length = byteLength kind.text.toList := by
    rw [← length_flatMap_utf8EncodeChar, hbytes, List.length_cons, Nat.add_comm]
  rw [List.flatMap_append, hbytes, List.cons_append, tokensFrom, hblank, hfront]
  simp only [Bool.false_eq_true, ↓reduceIte, List.take_left, List.drop_left, htext, hlength, hrest,
    bind, Option.bind_some, Option.map_some, hkind]
  cases read <;> rfl

/-- The first bytes of a value are followed by those of its other characters. -/
theorem front?_value {c : Char} (cs : List Char) (hvalue : isValueChar c = true) {byte : UInt8}
    {others : List UInt8} (hbytes : String.utf8EncodeChar c = byte :: others) :
    front? byte (others ++ cs.flatMap String.utf8EncodeChar) =
      some (.value,
        (others ++ (cs.takeWhile isValueChar).flatMap String.utf8EncodeChar).length) := by
  have hkept : ∀ next ∈ byte :: others, (!isDelimiter next) = true := fun next hnext =>
    (isDelimiter_eq (hbytes ▸ hnext)).trans hvalue
  have hfirst := hkept byte List.mem_cons_self
  simp only [isDelimiter, Bool.not_eq_true', Bool.or_eq_false_iff, beq_eq_false_iff_ne] at hfirst
  obtain ⟨⟨⟨⟨hbar, hand⟩, hopen⟩, hclose⟩, -⟩ := hfirst
  have hrun : (others ++ cs.flatMap String.utf8EncodeChar).takeWhile (fun b => !isDelimiter b) =
      others ++ (cs.takeWhile isValueChar).flatMap String.utf8EncodeChar := by
    rw [List.takeWhile_append_of_pos fun next hnext => hkept next (List.mem_cons_of_mem _ hnext)]
    congr 1
    refine takeWhile_flatMap (fun d => ?_) (fun d b hb => isDelimiter_eq hb) cs
    obtain ⟨first, rest, hd⟩ := exists_utf8EncodeChar_eq_cons d
    simp [hd]
  rw [front?, hrun]
  simp [hbar, hand, hopen, hclose]

/-- No token starts with a bar or an ampersand that stands alone. -/
theorem front?_sign {sign : Char} (hsign : sign = '|' ∨ sign = '&') {cs : List Char}
    (hsingle : cs.head? ≠ some sign) :
    front? sign.toUInt8 (cs.flatMap String.utf8EncodeChar) = none := by
  have hascii : sign.toNat < 128 := by
    rcases hsign with rfl | rfl <;> decide
  have hhead : (cs.flatMap String.utf8EncodeChar).head? ≠ some sign.toUInt8 :=
    (not_congr (head?_flatMap_iff hascii cs)).mpr hsingle
  rcases hsign with rfl | rfl
  · rw [front?, if_neg fun h => hhead h.2]
    rfl
  · rw [front?, if_neg fun h => absurd h.1 (by decide), if_neg fun h => hhead h.2]
    rfl

/-- The walk over the bytes of characters finds the tokens of the characters. -/
theorem tokensFrom_flatMap (position : Nat) (cs : List Char) :
    tokensFrom position (cs.flatMap String.utf8EncodeChar) =
      some ((FilterSql.tokensFrom position cs).map (List.map Token.spanned)) := by
  fun_induction FilterSql.tokensFrom position cs with
  | case1 position =>
      rw [List.flatMap_nil, tokensFrom]
      rfl
  | case2 position cs ih =>
      exact tokensFrom_token .or ['|', '|'] 2 (fun _ => .or)
        rfl rfl rfl rfl rfl rfl ih
  | case3 position cs ih =>
      exact tokensFrom_token .and ['&', '&'] 2 (fun _ => .and)
        rfl rfl rfl rfl rfl rfl ih
  | case4 position cs ih =>
      exact tokensFrom_token .leftParen ['('] 1 (fun _ => .leftParen)
        rfl rfl rfl rfl rfl rfl ih
  | case5 position cs ih =>
      exact tokensFrom_token .rightParen [')'] 1 (fun _ => .rightParen)
        rfl rfl rfl rfl rfl rfl ih
  | case6 position c cs _ _ _ _ hblank ih =>
      obtain ⟨byte, others, hbytes⟩ := exists_utf8EncodeChar_eq_cons c
      have hbyte := isBlankByte_eq (hbytes ▸ List.mem_cons_self)
      have hlength := String.length_utf8EncodeChar c
      rw [hbytes, utf8Size_of_isAsciiBlank hblank] at hlength
      have hothers : others = [] := List.length_eq_zero_iff.mp (Nat.succ.inj hlength)
      rw [List.flatMap_cons, hbytes, hothers, List.singleton_append,
        tokensFrom_blank (hbyte.trans hblank), ih]
  | case7 position c cs hbars hands _ _ _ hsign =>
      have hsingle : cs.head? ≠ some c := by
        intro hhead
        obtain ⟨rest, rfl⟩ := List.head?_eq_some_iff.mp hhead
        rcases hsign with rfl | rfl
        · exact hbars rest rfl rfl
        · exact hands rest rfl rfl
      have hfront := front?_sign hsign hsingle
      rw [List.flatMap_cons]
      rcases hsign with rfl | rfl <;> exact tokensFrom_refused rfl hfront
  | case8 position c cs _ _ hopen hclose hblank hsign run _ =>
      rename_i ih
      have hvalue : isValueChar c = true := by
        simp [isValueChar, hblank, not_or.mp hsign, show c ≠ '(' from hopen,
          show c ≠ ')' from hclose]
      obtain ⟨byte, others, hbytes⟩ := exists_utf8EncodeChar_eq_cons c
      have hbyte := isBlankByte_eq (hbytes ▸ List.mem_cons_self)
      have hrun : run.flatMap String.utf8EncodeChar =
          byte :: (others ++ (cs.takeWhile isValueChar).flatMap String.utf8EncodeChar) := by
        rw [List.flatMap_cons, hbytes, List.cons_append]
      have hcs : c :: cs = run ++ cs.dropWhile isValueChar :=
        congrArg (c :: ·) List.takeWhile_append_dropWhile.symm
      have hfront := front?_value cs hvalue hbytes
      rw [hcs]
      refine tokensFrom_token (.value (String.ofList run)) run _ .value
        String.toList_ofList rfl hrun ?_ ?_ rfl ih
      · exact hbyte.trans (Bool.eq_false_iff.mpr hblank)
      · rw [List.append_assoc, ← List.flatMap_append, List.takeWhile_append_dropWhile]
        exact hfront

/-- The walk over the bytes of a text finds the tokens of the text, and cuts no character. -/
theorem tokens_eq (raw : String) :
    tokens raw = some ((FilterSql.tokens raw).map (List.map Token.spanned)) := by
  rw [tokens, Text.bytes_eq_flatMap, tokensFrom_flatMap, FilterSql.tokens]

end ByteWalk

end FilterSql

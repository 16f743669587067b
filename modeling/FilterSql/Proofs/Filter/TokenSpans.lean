/-
Where the tokens of a filter value stand.

The spans of the tokens follow one another through a text, and only blanks stand outside of
them.  A span starts and ends between characters and holds the text of its token; a value goes
on as far as it can to either side.  The texts of the tokens alone, with a blank between each
two, have the same tokens.
-/
import FilterSql.Proofs.Filter.ByteWalk
import FilterSql.Proofs.Filter.TreeText
import FilterSql.Proofs.Text.Runs

namespace FilterSql

namespace Token

/-- A byte lies in the span of a token. -/
def Covers (token : Token) (index : Nat) : Prop :=
  token.position ≤ index ∧ index < token.stop

instance (token : Token) (index : Nat) : Decidable (token.Covers index) :=
  inferInstanceAs (Decidable (token.position ≤ index ∧ index < token.stop))

/-- A token is what stands in its span; a value is all characters of values that stand there side
by side, and a token of another kind is a delimiter. -/
structure StandsIn (raw : String) (token : Token) : Prop where
  nonempty : token.position < token.stop
  starts : (String.Pos.Raw.mk token.position).IsValid raw
  stops : (String.Pos.Raw.mk token.stop).IsValid raw
  text : (Text.bytes raw).extract token.position token.stop = Text.bytes token.kind.text
  value : ∀ text, token.kind = .value text → ∃ before after,
    raw.toList = before ++ (text.toList ++ after) ∧ byteLength before = token.position ∧
      Text.IsRun isValueChar before text.toList after
  delimiter : (∀ text, token.kind ≠ .value text) → token.kind.text ∈ ["&&", "||", "(", ")"]

/-- A token stands in a text between two others. -/
structure StandsBetween (cs before after : List Char) (token : Token) : Prop where
  eq_append : cs = before ++ (token.lexeme.toList ++ after)
  position : token.position = byteLength before
  value : ∀ text, token.kind = .value text → Text.IsRun isValueChar before text.toList after

end Token

theorem isBlankByte_of_mem {blanks : List Char}
    (hblanks : ∀ c ∈ blanks, Text.isAsciiBlank c = true) {byte : UInt8}
    (hbyte : byte ∈ blanks.flatMap String.utf8EncodeChar) : Text.isBlankByte byte = true := by
  obtain ⟨c, hc, hbyte⟩ := List.mem_flatMap.mp hbyte
  exact (isBlankByte_eq hbyte).trans (hblanks c hc)

/-- No value goes on from one text into the next. -/
def NoValueAcross (before after : List Char) : Prop :=
  (∀ c ∈ before.getLast?, isValueChar c = false) ∨ EndsValue after

theorem isValueChar_of_isAsciiBlank {c : Char} (hblank : Text.isAsciiBlank c = true) :
    isValueChar c = false := by
  simp [isValueChar, hblank]

namespace NoValueAcross

variable {before after : List Char}

theorem blanks {blanks : List Char} (h : NoValueAcross before (blanks ++ after))
    (hblanks : ∀ c ∈ blanks, Text.isAsciiBlank c = true) :
    NoValueAcross (before ++ blanks) after := by
  cases hlast : blanks.getLast? with
  | none =>
      rw [List.getLast?_eq_none_iff.mp hlast] at h ⊢
      rwa [List.append_nil]
  | some last =>
      left
      intro c hc
      rw [List.getLast?_append, hlast, Option.some_or] at hc
      cases hc
      exact isValueChar_of_isAsciiBlank (hblanks last (List.mem_of_getLast? hlast))

theorem lexeme (before : List Char) {token : Token}
    (hvalue : ∀ text, token.kind = .value text → EndsValue after) :
    NoValueAcross (before ++ token.lexeme.toList) after := by
  rw [Token.lexeme]
  cases hkind : token.kind with
  | value text => exact Or.inr (hvalue text hkind)
  | and | or | leftParen | rightParen =>
      left
      simp [TokenKind.text, List.getLast?_append, isValueChar]

/-- A value that starts here has no character before it that could belong to it. -/
theorem before_value {text : String} (htext : IsValueText text)
    (h : NoValueAcross before (text.toList ++ after)) :
    ∀ c ∈ before.getLast?, isValueChar c = false := by
  rcases h with hlast | hends
  · exact hlast
  · cases hchars : text.toList with
    | nil => exact absurd (String.toList_eq_nil_iff.mp hchars) htext.ne_empty
    | cons c cs =>
        rw [hchars] at hends
        have hvalue := htext.chars c (hchars ▸ List.mem_cons_self)
        rw [hends c rfl] at hvalue
        cases hvalue

end NoValueAcross

namespace Spells

variable {position : Nat} {cs front : List Char} {tokens : List Token}

theorem le_position (h : Spells position cs tokens) {token : Token} (htoken : token ∈ tokens) :
    position ≤ token.position := by
  induction h with
  | stop => cases htoken
  | @token position blanks rest first tokens _ hposition _ _ ih =>
      rcases List.mem_cons.mp htoken with rfl | htoken
      · omega
      · have hle := ih htoken
        rw [Token.stop] at hle
        omega

theorem pairwise_stop_le (h : Spells position cs tokens) :
    tokens.Pairwise fun first second => first.stop ≤ second.position := by
  induction h with
  | stop => exact .nil
  | token _ _ _ h ih => exact .cons (fun second hsecond => h.le_position hsecond) ih

/-- The bytes that no token covers are blanks. -/
theorem isBlankByte (h : Spells position cs tokens) {index : Nat} {byte : UInt8}
    (hbyte : (cs.flatMap String.utf8EncodeChar)[index]? = some byte)
    (houtside : ∀ token ∈ tokens, ¬token.Covers (position + index)) :
    Text.isBlankByte byte = true := by
  induction h generalizing index with
  | stop hblanks => exact isBlankByte_of_mem hblanks (List.mem_of_getElem? hbyte)
  | @token position blanks rest first tokens hblanks hposition _ _ ih =>
      have hblanksLength := length_flatMap_utf8EncodeChar blanks
      have hlexemeLength := length_flatMap_utf8EncodeChar first.lexeme.toList
      rw [List.forall_mem_cons] at houtside
      rw [List.flatMap_append, List.flatMap_append] at hbyte
      by_cases hfront : index < byteLength blanks
      · rw [List.getElem?_append_left (by omega)] at hbyte
        exact isBlankByte_of_mem hblanks (List.mem_of_getElem? hbyte)
      · have hpast : byteLength blanks + byteLength first.lexeme.toList ≤ index := by
          have hnot := houtside.1
          rw [Token.Covers, Token.stop, hposition] at hnot
          omega
        rw [List.getElem?_append_right (by omega), List.getElem?_append_right (by omega),
          hblanksLength, hlexemeLength] at hbyte
        refine ih hbyte fun token htoken hcovers => houtside.2 token htoken ?_
        have hindex : first.stop + (index - byteLength blanks - byteLength first.lexeme.toList) =
            position + index := by
          rw [Token.stop, hposition]
          omega
        rwa [hindex] at hcovers

/-- Every token stands between what was read before it and what is read after it. -/
theorem standsBetween (h : Spells position cs tokens) (hposition : position = byteLength front)
    (hfront : NoValueAcross front cs) {token : Token} (htoken : token ∈ tokens) :
    ∃ before after, token.StandsBetween (front ++ cs) before after := by
  induction h generalizing front with
  | stop => cases htoken
  | @token position blanks rest first tokens hblanks hplace hvalue _ ih =>
      have hbefore : first.position = byteLength (front ++ blanks) := by
        rw [hplace, hposition, byteLength_append]
      rw [← List.append_assoc front blanks]
      rcases List.mem_cons.mp htoken with rfl | htoken
      · refine ⟨front ++ blanks, rest, rfl, hbefore, fun text htext => ?_⟩
        obtain ⟨hchars, hends⟩ := hvalue text htext
        have hacross := hfront.blanks hblanks
        rw [Token.lexeme, htext] at hacross
        exact ⟨by simpa using hchars.ne_empty, hchars.chars, hacross.before_value hchars, hends⟩
      · rw [← List.append_assoc]
        refine ih ?_ ?_ htoken
        · rw [Token.stop, hbefore, ← byteLength_append]
        · exact .lexeme _ fun text htext => (hvalue text htext).2

end Spells

namespace Token

theorem StandsBetween.standsIn {raw : String} {token : Token} {before after : List Char}
    (h : token.StandsBetween raw.toList before after) : token.StandsIn raw where
  nonempty := by
    have hlexeme : token.lexeme.toList ≠ [] := by
      rw [Ne, String.toList_eq_nil_iff]
      exact lexeme_ne_empty fun text htext => by simpa using (h.value text htext).ne_nil
    exact Nat.lt_add_of_pos_right (byteLength_pos hlexeme)
  starts := by
    rw [h.position]
    exact isValid_byteLength h.eq_append
  stops := by
    rw [stop, h.position, ← byteLength_append]
    exact isValid_byteLength (by rw [h.eq_append, List.append_assoc])
  text := by
    have hbefore := length_flatMap_utf8EncodeChar before
    have hlexeme := length_flatMap_utf8EncodeChar token.lexeme.toList
    rw [Text.bytes_eq_flatMap, Text.bytes_eq_flatMap, h.eq_append, List.flatMap_append,
      List.flatMap_append, stop, h.position, List.extract_eq_take_drop, Nat.add_sub_cancel_left,
      List.drop_left' hbefore, List.take_left' hlexeme]
    rfl
  value := by
    intro text htext
    refine ⟨before, after, ?_, h.position.symm, h.value text htext⟩
    rw [h.eq_append, lexeme, htext]
    rfl
  delimiter := by
    intro hvalue
    cases hkind : token.kind with
    | value text => exact absurd hkind (hvalue text)
    | and | or | leftParen | rightParen => decide

end Token

/-- Texts of tokens with blanks between them spell these tokens. -/
theorem spellsKinds_intercalate {kinds : List TokenKind}
    (hvalues : ∀ text, .value text ∈ kinds → IsValueText text) :
    SpellsKinds (" ".intercalate (kinds.map TokenKind.text)).toList kinds := by
  induction kinds with
  | nil => exact .nil
  | cons kind kinds ih =>
      have hrest := ih fun text htext => hvalues text (List.mem_cons_of_mem _ htext)
      cases kinds with
      | nil =>
          have hlast := SpellsKinds.nil.token kind ?_
          · rwa [List.append_nil] at hlast
          · rintro text rfl
            exact ⟨hvalues text List.mem_cons_self, by simp [EndsValue]⟩
      | cons next others =>
          rw [List.map_cons, List.map_cons, String.intercalate_cons_cons, String.toList_append,
            String.toList_append, List.append_assoc]
          refine hrest.blank.token kind ?_
          rintro text rfl
          refine ⟨hvalues text List.mem_cons_self, ?_⟩
          rintro c ⟨⟩
          rfl

/-- The tokens of a text stand in it one after another, each as all that its span holds, and all
bytes that none of them covers are blanks.  A walk over the bytes finds them with these texts and
spans.  The texts of the tokens with blanks between them have tokens of the same kinds. -/
theorem standsIn_of_tokens {raw : String} {read : List Token} (hread : tokens raw = .ok read) :
    ByteWalk.tokens raw = some (.ok (read.map Token.spanned)) ∧
    (∀ token ∈ read, token.StandsIn raw) ∧
    (read.Pairwise fun first second => first.stop ≤ second.position) ∧
    (∀ index byte, (Text.bytes raw)[index]? = some byte →
      (∀ token ∈ read, ¬token.Covers index) → Text.isBlankByte byte = true) ∧
    ∃ again, tokens (" ".intercalate (read.map Token.lexeme)) = .ok again ∧
      again.map Token.kind = read.map Token.kind := by
  have hspells : Spells 0 raw.toList read := spells_of_tokensFrom hread
  refine ⟨?_, ?_, hspells.pairwise_stop_le, ?_, ?_⟩
  · rw [ByteWalk.tokens_eq, hread]
    rfl
  · intro token htoken
    have hstart : NoValueAcross [] raw.toList := Or.inl (by simp)
    obtain ⟨before, after, h⟩ := hspells.standsBetween rfl hstart htoken
    exact h.standsIn
  · intro index byte hbyte houtside
    rw [Text.bytes_eq_flatMap] at hbyte
    exact hspells.isBlankByte hbyte (by simpa only [Nat.zero_add] using houtside)
  · have hvalues : ∀ text, .value text ∈ read.map Token.kind → IsValueText text :=
      fun text htext => hspells.isValueText (List.mem_filterMap.mpr ⟨_, htext, rfl⟩)
    obtain ⟨again, hagain, hkinds⟩ := spellsKinds_intercalate hvalues 0
    refine ⟨again, tokensFrom_of_spells ?_, hkinds⟩
    rwa [List.map_map] at hagain

namespace TokenSpans

/-- A text with a letter of two bytes in its first value, and a tab before the second. -/
def sizes : String := "(größe&&\tweit )"

/-- Spans count bytes, so the first value is seven long. -/
theorem standsIn_of_sizes :
    tokens sizes = .ok [⟨.leftParen, 0⟩, ⟨.value "größe", 1⟩, ⟨.and, 8⟩, ⟨.value "weit", 11⟩,
      ⟨.rightParen, 16⟩] ∧
    ByteWalk.tokens sizes = some (.ok [⟨.leftParen, "(", 0, 1⟩, ⟨.value "größe", "größe", 1, 8⟩,
      ⟨.and, "&&", 8, 10⟩, ⟨.value "weit", "weit", 11, 15⟩, ⟨.rightParen, ")", 16, 17⟩]) ∧
    (Token.mk (.value "größe") 1).StandsIn sizes ∧
    Text.isBlankByte 0x09 = true ∧
    ∃ again, tokens "( größe && weit )" = .ok again ∧
      again.map Token.kind = [.leftParen, .value "größe", .and, .value "weit", .rightParen] := by
  have hread : tokens sizes = .ok [⟨.leftParen, 0⟩, ⟨.value "größe", 1⟩, ⟨.and, 8⟩,
      ⟨.value "weit", 11⟩, ⟨.rightParen, 16⟩] := by
    decide +kernel
  obtain ⟨hwalk, hstands, -, hblank, hagain⟩ := standsIn_of_tokens hread
  refine ⟨hread, hwalk, hstands _ (by simp), ?_, hagain⟩
  exact hblank 10 0x09 (by decide +kernel) (by decide +kernel)

end TokenSpans

end FilterSql

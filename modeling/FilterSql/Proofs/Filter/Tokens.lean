/-
How a text spells its tokens.

Blanks may stand before each token and after the last one.  An operator or a parenthesis is
its own text, and a plain value goes on as far as it can.  Reading a text finds the tokens
that it spells, each at its place, and the tree of a text is the one that the grammar gives
for these tokens.
-/
import Mathlib.Data.List.TakeWhile
import FilterSql.Proofs.Filter.Grammar
import FilterSql.Proofs.Traversal

namespace FilterSql

@[simp] theorem byteLength_append (before after : List Char) :
    byteLength (before ++ after) = byteLength before + byteLength after := by
  induction before with
  | nil => simp [byteLength]
  | cons c before ih => rw [List.cons_append, byteLength, byteLength, ih, Nat.add_assoc]

theorem byteLength_pos {cs : List Char} (hcs : cs ≠ []) : 0 < byteLength cs := by
  obtain ⟨c, others, rfl⟩ := List.exists_cons_of_ne_nil hcs
  exact Nat.add_pos_left c.utf8Size_pos _

theorem byteLength_eq_utf8ByteSize (cs : List Char) :
    byteLength cs = (String.ofList cs).utf8ByteSize := by
  induction cs with
  | nil => rfl
  | cons c cs ih =>
      rw [byteLength, ih, String.ofList_cons, String.utf8ByteSize_append,
        String.utf8ByteSize_singleton]

/-- A character starts, or the text ends, after all characters before. -/
theorem isValid_byteLength {raw : String} {before after : List Char}
    (hraw : raw.toList = before ++ after) :
    (String.Pos.Raw.mk (byteLength before)).IsValid raw := by
  have hwhole : raw = String.ofList before ++ String.ofList after := by
    rw [← String.toList_inj, hraw]
    simp
  rw [String.Pos.Raw.isValid_iff_exists_append, byteLength_eq_utf8ByteSize]
  exact ⟨_, _, hwhole, rfl⟩

theorem Token.lexeme_ne_empty {token : Token}
    (hvalue : ∀ text, token.kind = .value text → text ≠ "") : token.lexeme ≠ "" := by
  rw [lexeme]
  cases hkind : token.kind with
  | value text => exact hvalue text hkind
  | and | or | leftParen | rightParen => decide

/-- A text that the value of a token can be. -/
structure IsValueText (text : String) : Prop where
  ne_empty : text ≠ ""
  chars : ∀ c ∈ text.toList, isValueChar c = true

instance (text : String) : Decidable (IsValueText text) :=
  decidable_of_iff (text ≠ "" ∧ text.toList.all isValueChar = true)
    ⟨fun h => ⟨h.1, List.all_eq_true.mp h.2⟩, fun h => ⟨h.ne_empty, List.all_eq_true.mpr h.chars⟩⟩

/-- No plain value can go on at the front of a text. -/
def EndsValue (rest : List Char) : Prop :=
  ∀ c ∈ rest.head?, isValueChar c = false

theorem endsValue_dropWhile (cs : List Char) : EndsValue (cs.dropWhile isValueChar) := by
  intro c hc
  have hhead := List.head?_dropWhile_not isValueChar cs
  rw [hc] at hhead
  exact hhead

/-- A text that starts at a byte spells tokens. -/
inductive Spells : Nat → List Char → List Token → Prop
  | stop {position : Nat} {blanks : List Char}
      (hblanks : ∀ c ∈ blanks, Text.isAsciiBlank c = true) : Spells position blanks []
  | token {position : Nat} {blanks rest : List Char} {token : Token} {tokens : List Token}
      (hblanks : ∀ c ∈ blanks, Text.isAsciiBlank c = true)
      (hposition : token.position = position + byteLength blanks)
      (hvalue : ∀ text, token.kind = .value text → IsValueText text ∧ EndsValue rest)
      (h : Spells token.stop rest tokens) :
      Spells position (blanks ++ (token.lexeme.toList ++ rest)) (token :: tokens)

section Reading

variable {position : Nat} {rest : List Char}

theorem utf8Size_of_isAsciiBlank {c : Char} (hblank : Text.isAsciiBlank c = true) :
    c.utf8Size = 1 := by
  simp only [Text.isAsciiBlank, Bool.or_eq_true, beq_iff_eq] at hblank
  rcases hblank with (((rfl | rfl) | rfl) | rfl) | rfl <;> rfl

theorem tokensFrom_blank {c : Char} (hblank : Text.isAsciiBlank c = true) :
    tokensFrom position (c :: rest) = tokensFrom (position + 1) rest := by
  have hc := hblank
  simp only [Text.isAsciiBlank, Bool.or_eq_true, beq_iff_eq] at hc
  rcases hc with (((rfl | rfl) | rfl) | rfl) | rfl <;>
    (rw [tokensFrom, if_pos hblank] <;> simp)

theorem tokensFrom_blanks {blanks : List Char}
    (hblanks : ∀ c ∈ blanks, Text.isAsciiBlank c = true) :
    tokensFrom position (blanks ++ rest) =
      tokensFrom (position + byteLength blanks) rest := by
  induction blanks generalizing position with
  | nil => rfl
  | cons c blanks ih =>
      have hc := hblanks c List.mem_cons_self
      rw [List.cons_append, tokensFrom_blank hc,
        ih fun d hd => hblanks d (List.mem_cons_of_mem c hd), byteLength,
        utf8Size_of_isAsciiBlank hc, Nat.add_assoc]

theorem tokensFrom_value {c : Char} {cs : List Char}
    (hrun : ∀ d ∈ c :: cs, isValueChar d = true) (hrest : EndsValue rest) :
    tokensFrom position (c :: cs ++ rest) =
      (tokensFrom (position + byteLength (c :: cs)) rest).map
        (⟨.value (String.ofList (c :: cs)), position⟩ :: ·) := by
  have hcs : ∀ d ∈ cs, isValueChar d = true := fun d hd => hrun d (List.mem_cons_of_mem _ hd)
  have htake : (cs ++ rest).takeWhile isValueChar = cs := by
    rw [List.takeWhile_append_of_pos hcs]
    cases rest with
    | nil => simp
    | cons d rest => simp [hrest d rfl]
  have hdrop : (cs ++ rest).dropWhile isValueChar = rest := by
    rw [List.dropWhile_append_of_pos hcs]
    cases rest with
    | nil => rfl
    | cons d rest => simp [hrest d rfl]
  have hc := hrun c List.mem_cons_self
  simp only [isValueChar, Bool.not_eq_true', Bool.or_eq_false_iff, beq_eq_false_iff_ne] at hc
  obtain ⟨⟨⟨⟨hblank, hbar⟩, hamp⟩, hopen⟩, hclose⟩ := hc
  rw [List.cons_append, tokensFrom]
  · simp [hblank, hbar, hamp, htake, hdrop]
  · simp [hbar]
  · simp [hamp]
  · exact hopen
  · exact hclose

theorem tokensFrom_text (kind : TokenKind) (chars : List Char) (width : Nat)
    (hchars : kind.text.toList = chars) (hwidth : byteLength chars = width)
    (hread : tokensFrom position (chars ++ rest) =
      (tokensFrom (position + width) rest).map (⟨kind, position⟩ :: ·)) :
    tokensFrom position (kind.text.toList ++ rest) =
      (tokensFrom (position + byteLength kind.text.toList) rest).map (⟨kind, position⟩ :: ·) := by
  subst hchars hwidth
  exact hread

/-- The first token of a text is read, and then the rest. -/
theorem tokensFrom_lexeme (token : Token)
    (hvalue : ∀ text, token.kind = .value text → IsValueText text ∧ EndsValue rest) :
    tokensFrom token.position (token.lexeme.toList ++ rest) =
      (tokensFrom token.stop rest).map (token :: ·) := by
  obtain ⟨kind, position⟩ := token
  cases kind with
  | and =>
      exact tokensFrom_text .and ['&', '&'] 2 rfl rfl (by simp [tokensFrom])
  | or =>
      exact tokensFrom_text .or ['|', '|'] 2 rfl rfl (by simp [tokensFrom])
  | leftParen =>
      exact tokensFrom_text .leftParen ['('] 1 rfl rfl (by simp [tokensFrom])
  | rightParen =>
      exact tokensFrom_text .rightParen [')'] 1 rfl rfl (by simp [tokensFrom])
  | value text =>
      obtain ⟨htext, hrest⟩ := hvalue text rfl
      cases hchars : text.toList with
      | nil => exact absurd (String.toList_eq_nil_iff.mp hchars) htext.ne_empty
      | cons c cs =>
          have hread : tokensFrom position (c :: cs ++ rest) = _ :=
            tokensFrom_value (hchars ▸ htext.chars) hrest
          rw [← hchars, String.ofList_toList] at hread
          exact hread

theorem tokensFrom_of_spells {cs : List Char} {tokens : List Token}
    (h : Spells position cs tokens) : tokensFrom position cs = .ok tokens := by
  induction h with
  | @stop position blanks hblanks =>
      rw [← List.append_nil blanks, tokensFrom_blanks hblanks, tokensFrom]
  | token hblanks hposition hvalue _ ih =>
      rw [tokensFrom_blanks hblanks, ← hposition, tokensFrom_lexeme _ hvalue, ih]
      rfl

/-- A blank may stand before what is spelled. -/
theorem Spells.blank {c : Char} (hblank : Text.isAsciiBlank c = true) {cs : List Char}
    {tokens : List Token} (h : Spells (position + c.utf8Size) cs tokens) :
    Spells position (c :: cs) tokens := by
  have hcons : ∀ {blanks : List Char}, (∀ d ∈ blanks, Text.isAsciiBlank d = true) →
      ∀ d ∈ c :: blanks, Text.isAsciiBlank d = true := by
    intro blanks hblanks d hd
    rcases List.mem_cons.mp hd with rfl | hd
    · exact hblank
    · exact hblanks d hd
  cases h with
  | stop hblanks => exact .stop (hcons hblanks)
  | token hblanks hposition hvalue h =>
      rw [← List.cons_append]
      exact .token (hcons hblanks) (by rw [hposition, byteLength, Nat.add_assoc]) hvalue h

/-- A token may stand before what is spelled, without a blank. -/
theorem Spells.lexeme {token : Token} {tokens : List Token} (h : Spells token.stop rest tokens)
    (hvalue : ∀ text, token.kind = .value text → IsValueText text ∧ EndsValue rest) :
    Spells token.position (token.lexeme.toList ++ rest) (token :: tokens) :=
  @Spells.token token.position [] rest token tokens (List.forall_mem_nil _) rfl hvalue h

/-- What is read at the front of a text stands there, and the rest is read on. -/
theorem Spells.of_map (kind : TokenKind) (chars : List Char) {width : Nat}
    (hchars : kind.text.toList = chars) (hwidth : byteLength chars = width) {result : List Token}
    (hread : (tokensFrom (position + width) rest).map (⟨kind, position⟩ :: ·) = .ok result)
    (hvalue : ∀ text, kind = .value text → IsValueText text ∧ EndsValue rest)
    (ih : ∀ tokens, tokensFrom (position + width) rest = .ok tokens →
      Spells (position + width) rest tokens) :
    Spells position (chars ++ rest) result := by
  subst hchars hwidth
  cases hrest : tokensFrom (position + byteLength kind.text.toList) rest with
  | error reason => simp [hrest, Except.map] at hread
  | ok tokens =>
      simp only [hrest, Except.map, Except.ok.injEq] at hread
      subst hread
      have htail : Spells (Token.stop ⟨kind, position⟩) rest tokens := ih tokens hrest
      exact htail.lexeme hvalue

theorem spells_of_tokensFrom {cs : List Char} {tokens : List Token}
    (hread : tokensFrom position cs = .ok tokens) : Spells position cs tokens := by
  fun_induction tokensFrom position cs generalizing tokens with
  | case1 =>
      cases hread
      exact .stop (by simp)
  | case2 position cs ih =>
      exact .of_map .or ['|', '|'] rfl rfl hread (by simp) @ih
  | case3 position cs ih =>
      exact .of_map .and ['&', '&'] rfl rfl hread (by simp) @ih
  | case4 position cs ih =>
      exact .of_map .leftParen ['('] rfl rfl hread (by simp) @ih
  | case5 position cs ih =>
      exact .of_map .rightParen [')'] rfl rfl hread (by simp) @ih
  | case6 position c cs _ _ _ _ hblank ih =>
      have hspells := ih hread
      rw [← utf8Size_of_isAsciiBlank hblank] at hspells
      exact hspells.blank hblank
  | case7 => cases hread
  | case8 position c cs _ _ hopen hclose hblank hodd run _ =>
      rename_i ih
      have hrun : ∀ d ∈ run, isValueChar d = true := by
        intro d hd
        rcases List.mem_cons.mp hd with rfl | hd
        · simp [isValueChar, hblank, not_or.mp hodd, show d ≠ '(' from hopen,
            show d ≠ ')' from hclose]
        · exact List.mem_takeWhile_imp hd
      have hcs : c :: cs = run ++ cs.dropWhile isValueChar :=
        congrArg (c :: ·) List.takeWhile_append_dropWhile.symm
      rw [hcs]
      refine .of_map (.value (String.ofList run)) run String.toList_ofList rfl hread ?_ @ih
      rintro text heq
      cases heq
      exact ⟨⟨by simp [run], by simpa using hrun⟩, endsValue_dropWhile cs⟩

/-- Reading finds the tokens that a text spells. -/
theorem tokensFrom_eq_ok_iff {cs : List Char} {tokens : List Token} :
    tokensFrom position cs = .ok tokens ↔ Spells position cs tokens :=
  ⟨spells_of_tokensFrom, tokensFrom_of_spells⟩

/-- The text of a token stands in the text that spells it. -/
theorem Spells.exists_eq_append {cs : List Char} {tokens : List Token}
    (h : Spells position cs tokens) {token : Token} (htoken : token ∈ tokens) :
    ∃ before after, cs = before ++ (token.lexeme.toList ++ after) := by
  induction h with
  | stop => cases htoken
  | @token position blanks rest first tokens _ _ _ _ ih =>
      rcases List.mem_cons.mp htoken with rfl | htoken
      · exact ⟨blanks, rest, rfl⟩
      · obtain ⟨before, after, rfl⟩ := ih htoken
        exact ⟨blanks ++ (first.lexeme.toList ++ before), after, by simp⟩

/-- The values among the tokens of a text can be values. -/
theorem Spells.isValueText {cs : List Char} {tokens : List Token} (h : Spells position cs tokens)
    {text : String} (htext : text ∈ (tokens.map Token.kind).filterMap TokenKind.value?) :
    IsValueText text := by
  induction h with
  | stop => simp at htext
  | @token position blanks rest token tokens _ _ hvalue _ ih =>
      rw [List.map_cons, List.filterMap_cons] at htext
      cases hkind : token.kind with
      | and | or | leftParen | rightParen =>
          exact ih (by simpa [hkind, TokenKind.value?] using htext)
      | value own =>
          simp only [hkind, TokenKind.value?, List.mem_cons] at htext
          rcases htext with rfl | htext
          · exact (hvalue text hkind).1
          · exact ih htext

end Reading

namespace Tree

/-- Every phrase is read as its tree. -/
theorem ofTokens_of_phrase {tokens : List Token} {tree : Tree}
    (hphrase : Phrase .or (tokens.map Token.kind) tree) : ofTokens tokens = .ok tree := by
  have hsettled : Machine.Settled Level.or.strength [] := fun operator hoperator => by
    simp at hoperator
  obtain ⟨machine, hrun, hholds⟩ := Machine.yields_phrase hphrase rfl hsettled []
  have hstart : Machine.start.run tokens = .ok machine := hrun
  simp [ofTokens, hstart, bind, Except.bind, hholds.finish_eq]

theorem phrase_of_ofTokens {read : List Token} {tree : Tree} (htree : ofTokens read = .ok tree) :
    Phrase .or (read.map Token.kind) tree := by
  obtain ⟨machine, hrun, hfinish⟩ := bind_eq_ok.mp htree
  exact Machine.finish_reads (Machine.run_reads Machine.reads_start hrun) hfinish

/-- A text has the tree of the phrase that it spells. -/
theorem ofText_eq_ok_iff {raw : String} {tree : Tree} :
    ofText raw = .ok tree ↔
      ∃ tokens, Spells 0 raw.toList tokens ∧ Phrase .or (tokens.map Token.kind) tree := by
  rw [ofText, bind_eq_ok]
  refine exists_congr fun read => and_congr tokensFrom_eq_ok_iff ?_
  exact ⟨phrase_of_ofTokens, ofTokens_of_phrase⟩

/-- The leaves of a text's tree can be values. -/
theorem isValueText_of_ofText {raw : String} {tree : Tree} (htree : ofText raw = .ok tree)
    {leaf : String} (hleaf : leaf ∈ tree.leaves) : IsValueText leaf := by
  obtain ⟨tokens, hspells, hphrase⟩ := ofText_eq_ok_iff.mp htree
  rw [hphrase.leaves_eq] at hleaf
  exact hspells.isValueText hleaf

end Tree

end FilterSql

/-
Where the errors of a filter value point.

An error names a byte of the value, one where a character starts.  There stands the sign, the
operator or the token that it blames, and a parenthesis that it calls unbalanced has no partner
in the value.  Only a value of blanks is empty.
-/
import FilterSql.Proofs.Filter.ParserSteps
import FilterSql.Proofs.Filter.Tokens
import FilterSql.Proofs.Text.Brackets

namespace FilterSql

open Text (Balanced Unpaired)

/-- A text has another one in it that starts at a byte and stands between two others; the byte is
one of the text's, and a character starts there. -/
structure Text.Places (raw : String) (position : Nat) (before text after : String) : Prop where
  eq_append : raw = before ++ (text ++ after)
  size : before.utf8ByteSize = position
  inside : position < raw.utf8ByteSize
  boundary : (String.Pos.Raw.mk position).IsValid raw

/-- What an error blames stands in the text where the error says. -/
def ParseError.PointsInto (raw : String) : ParseError → Prop
  | unbalancedParenthesis position => ∃ before parenthesis after,
      Text.Places raw position before (String.singleton parenthesis) after ∧
        Unpaired before.toList after.toList parenthesis
  | missingOperand operator position => (operator = "&&" ∨ operator = "||") ∧
      ∃ before after, Text.Places raw position before operator after
  | unexpectedToken token position => ∃ before after, Text.Places raw position before token after
  | empty => True

theorem Text.places_of_toList_eq {raw text : String} {before after : List Char}
    (htext : text ≠ "") (hraw : raw.toList = before ++ (text.toList ++ after)) :
    Places raw (byteLength before) (String.ofList before) text (String.ofList after) := by
  have hwhole : raw = String.ofList before ++ (text ++ String.ofList after) := by
    rw [← String.toList_inj, hraw]
    simp
  refine ⟨hwhole, (byteLength_eq_utf8ByteSize before).symm, ?_, ?_⟩
  · rw [hwhole, String.utf8ByteSize_append, String.utf8ByteSize_append, byteLength_eq_utf8ByteSize]
    have hsome : text.utf8ByteSize ≠ 0 :=
      fun hzero => htext (String.utf8ByteSize_eq_zero_iff.mp hzero)
    omega
  · exact isValid_byteLength hraw

theorem Token.IsOperator.lexeme_eq {token : Token} (htoken : token.IsOperator) :
    token.lexeme = "&&" ∨ token.lexeme = "||" := by
  refine htoken.imp ?_ ?_ <;> (intro hkind; rw [lexeme, hkind]; rfl)

/-- The operators and the opening parentheses that wait after a text: each stands at its place in
it, and what stands between them is balanced. -/
inductive Waiting : List Char → List Token → Prop
  | nil {cs : List Char} (h : Balanced cs) : Waiting cs []
  | cons {before inner : List Char} {token : Token} {operators : List Token}
      (h : Waiting before operators) (htoken : token.kind = .leftParen ∨ token.IsOperator)
      (hposition : token.position = byteLength before) (hinner : Balanced inner) :
      Waiting (before ++ (token.lexeme.toList ++ inner)) (token :: operators)

namespace Waiting

variable {cs : List Char} {operators : List Token}

/-- Balanced text may follow. -/
theorem append (h : Waiting cs operators) {more : List Char} (hmore : Balanced more) :
    Waiting (cs ++ more) operators := by
  cases h with
  | nil h => exact .nil (h.append hmore)
  | cons h htoken hposition hinner =>
      rw [List.append_assoc, List.append_assoc]
      exact .cons h htoken hposition (hinner.append hmore)

theorem push (h : Waiting cs operators) {token : Token}
    (htoken : token.kind = .leftParen ∨ token.IsOperator)
    (hposition : token.position = byteLength cs) :
    Waiting (cs ++ token.lexeme.toList) (token :: operators) := by
  have hpushed := cons h htoken hposition .nil
  rwa [List.append_nil] at hpushed

theorem balanced_lexeme {token : Token} (htoken : token.IsOperator) :
    Balanced token.lexeme.toList := by
  rcases htoken.lexeme_eq with htext | htext
  all_goals
    rw [htext]
    exact .char ⟨by decide, by decide⟩ (.char ⟨by decide, by decide⟩ .nil)

/-- Operators on top are a part of what stands below them. -/
theorem drop {above : List Token} (habove : ∀ operator ∈ above, operator.IsOperator)
    (h : Waiting cs (above ++ operators)) : Waiting cs operators := by
  induction above generalizing cs with
  | nil => exact h
  | cons operator above ih =>
      rw [List.forall_mem_cons] at habove
      cases h with
      | cons h _ _ hinner =>
          exact (ih habove.2 h).append ((balanced_lexeme habove.1).append hinner)

theorem balanced (hoperators : ∀ operator ∈ operators, operator.IsOperator)
    (h : Waiting cs operators) : Balanced cs := by
  rw [← List.append_nil operators] at h
  cases h.drop hoperators with
  | nil h => exact h

/-- The text after the topmost opening parenthesis is balanced. -/
theorem exists_of_opening {above below : List Token} {opening : Token}
    (habove : ∀ operator ∈ above, operator.IsOperator) (hopening : opening.kind = .leftParen)
    (h : Waiting cs (above ++ opening :: below)) :
    ∃ before inner, cs = before ++ '(' :: inner ∧ Waiting before below ∧
      opening.position = byteLength before ∧ Balanced inner := by
  cases h.drop habove with
  | @cons before inner _ _ h _ hposition hinner =>
      refine ⟨before, inner, ?_, h, hposition, hinner⟩
      rw [Token.lexeme, hopening]
      rfl

/-- What waits stands in the text. -/
theorem exists_of_mem (h : Waiting cs operators) {operator : Token}
    (hoperator : operator ∈ operators) :
    ∃ before after, cs = before ++ (operator.lexeme.toList ++ after) ∧
      operator.position = byteLength before := by
  induction h with
  | nil => cases hoperator
  | @cons before inner token _ _ _ hposition _ ih =>
      rcases List.mem_cons.mp hoperator with rfl | hoperator
      · exact ⟨before, inner, rfl, hposition⟩
      · obtain ⟨front, back, rfl, hplace⟩ := ih hoperator
        exact ⟨front, back ++ (token.lexeme.toList ++ inner), by simp, hplace⟩

/-- A token that is taken stands after what waited before. -/
theorem of_shifts {machine : Machine} {token : Token} (h : Waiting cs machine.operators)
    (hposition : token.position = byteLength cs)
    (hvalue : ∀ text, token.kind = .value text → IsValueText text)
    (hshifts : machine.Shifts token operators) :
    Waiting (cs ++ token.lexeme.toList) operators := by
  cases hshifts with
  | @value text htoken =>
      apply h.append
      apply Balanced.of_forall
      intro c hc
      rw [Token.lexeme, htoken] at hc
      have hchar := (hvalue text htoken).chars c hc
      simp only [isValueChar, Bool.not_eq_true', Bool.or_eq_false_iff,
        beq_eq_false_iff_ne] at hchar
      exact ⟨hchar.1.2, hchar.2⟩
  | opening htoken => exact h.push (Or.inl htoken) hposition
  | closing htoken hoperators habove hopening =>
      rw [hoperators] at h
      obtain ⟨before, inner, rfl, hbelow, -, hinner⟩ := h.exists_of_opening habove hopening
      have hgroup := hbelow.append (Balanced.group hinner .nil)
      rw [Token.lexeme, htoken]
      simpa [TokenKind.text] using hgroup
  | operator htoken hoperators habove =>
      rw [hoperators] at h
      exact (h.drop habove).push (Or.inr htoken) hposition

end Waiting

theorem balanced_of_blanks {blanks : List Char}
    (hblanks : ∀ c ∈ blanks, Text.isAsciiBlank c = true) : Balanced blanks := by
  apply Balanced.of_forall
  intro c hc
  constructor <;> (rintro rfl; exact absurd (hblanks _ hc) (by decide))

section Places

variable {raw : String} {cs rest : List Char} {operators : List Token}

theorem Token.pointsInto_lacksOperand {operator : Token} (hoperator : operator.IsOperator)
    {before after : List Char} (hraw : raw.toList = before ++ (operator.lexeme.toList ++ after))
    (hposition : operator.position = byteLength before) :
    operator.lacksOperand.PointsInto raw := by
  have htext := hoperator.lexeme_eq
  have hsome : operator.lexeme ≠ "" := by rcases htext with h | h <;> (rw [h]; decide)
  have hplaces := Text.places_of_toList_eq hsome hraw
  rw [← hposition] at hplaces
  exact ⟨htext, _, _, hplaces⟩

/-- An operator that waits after the front of a text, and lacks an operand, stands in the text. -/
theorem Waiting.pointsInto (hraw : raw.toList = cs ++ rest) (h : Waiting cs operators)
    {operator : Token} (hwaits : operator ∈ operators) (hoperator : operator.IsOperator) :
    operator.lacksOperand.PointsInto raw := by
  obtain ⟨before, after, rfl, hposition⟩ := h.exists_of_mem hwaits
  have hwhole : raw.toList = before ++ (operator.lexeme.toList ++ (after ++ rest)) := by
    simpa using hraw
  exact Token.pointsInto_lacksOperand hoperator hwhole hposition

/-- A token that is refused is to blame itself, or an operator before it. -/
theorem pointsInto_of_stepFault {machine : Machine} {token : Token} {reason : ParseError}
    (hraw : raw.toList = cs ++ (token.lexeme.toList ++ rest))
    (hposition : token.position = byteLength cs)
    (hvalue : ∀ text, token.kind = .value text → IsValueText text)
    (h : Waiting cs machine.operators) (hfault : machine.StepFault token reason) :
    reason.PointsInto raw := by
  have hlexeme := Token.lexeme_ne_empty fun text htext => (hvalue text htext).ne_empty
  have hplaces := Text.places_of_toList_eq hlexeme hraw
  rw [← hposition] at hplaces
  cases hfault with
  | unexpected => exact ⟨_, _, hplaces⟩
  | lacksOperand hoperator hwaits =>
      rcases List.mem_cons.mp hwaits with rfl | hwaits
      · exact Token.pointsInto_lacksOperand hoperator hraw hposition
      · exact h.pointsInto hraw hwaits hoperator
  | unbalanced hclosing hoperators =>
      have htext : token.lexeme = String.singleton ')' := by rw [Token.lexeme, hclosing]; rfl
      rw [htext] at hplaces
      refine ⟨_, _, _, hplaces, ?_⟩
      rw [String.toList_ofList]
      exact (h.balanced hoperators).unpaired_closing _

/-- At the end of a text an operator or a parenthesis that waits is to blame. -/
theorem pointsInto_of_endFault {consumed : List TokenKind} {machine : Machine}
    {reason : ParseError} (hraw : raw.toList = cs) (h : Waiting cs machine.operators)
    (hfault : machine.EndFault consumed reason) : reason.PointsInto raw := by
  cases hfault with
  | empty => trivial
  | lacksOperand hoperator hwaits =>
      exact h.pointsInto (by rw [hraw, List.append_nil]) hwaits hoperator
  | @unbalanced above below opening hoperators habove hopening =>
      rw [hoperators] at h
      obtain ⟨before, inner, rfl, -, hposition, hinner⟩ := h.exists_of_opening habove hopening
      have hplaces : Text.Places raw (byteLength before) _ (String.singleton '(') _ :=
        Text.places_of_toList_eq (by decide) hraw
      rw [← hposition] at hplaces
      refine ⟨_, _, _, hplaces, ?_⟩
      rw [String.toList_ofList, String.toList_ofList]
      exact hinner.unpaired_opening _

/-- Reading on from the front of a text fails where the error says. -/
theorem pointsInto_of_run {position : Nat} {tokens : List Token}
    (hspells : Spells position rest tokens) (hposition : position = byteLength cs)
    (hraw : raw.toList = cs ++ rest) {consumed : List TokenKind} {machine : Machine}
    (hreads : machine.Reads consumed) (h : Waiting cs machine.operators) {reason : ParseError}
    (hfails : (machine.run tokens).bind Machine.finish = .error reason) :
    reason.PointsInto raw := by
  induction hspells generalizing cs consumed machine with
  | stop hblanks =>
      have hend := Machine.endFault_of_finish hreads hfails
      exact pointsInto_of_endFault hraw (h.append (balanced_of_blanks hblanks)) hend
  | @token position blanks rest token tokens hblanks htoken hvalue _ ih =>
      have hwaiting := h.append (balanced_of_blanks hblanks)
      have hplace : token.position = byteLength (cs ++ blanks) := by
        rw [htoken, hposition, byteLength_append]
      have hfront : raw.toList = cs ++ blanks ++ (token.lexeme.toList ++ rest) := by
        rw [hraw, List.append_assoc]
      have htext : ∀ text, token.kind = .value text → IsValueText text :=
        fun text hkind => (hvalue text hkind).1
      rw [Machine.run_cons] at hfails
      cases hstep : machine.step token with
      | error other =>
          rw [hstep] at hfails
          cases hfails
          exact pointsInto_of_stepFault hfront hplace htext hwaiting
            (Machine.stepFault_of_step hreads hstep)
      | ok next =>
          rw [hstep] at hfails
          have hnext := hwaiting.of_shifts hplace htext (Machine.shifts_of_step hreads hstep)
          refine ih ?_ ?_ (Machine.step_reads hreads hstep) hnext hfails
          · rw [Token.stop, hplace, byteLength_append (cs ++ blanks)]
          · rw [hfront, ← List.append_assoc]

end Places

/-- An error blames a character of a text that starts at a byte. -/
def ParseError.BlamesCharacter (reason : ParseError) (position : Nat) (cs : List Char) : Prop :=
  ∃ before c after, cs = before ++ c :: after ∧
    reason = .unexpectedToken (String.singleton c) (position + byteLength before)

theorem ParseError.BlamesCharacter.append {reason : ParseError} {position : Nat}
    {rest : List Char} (front : List Char)
    (h : reason.BlamesCharacter (position + byteLength front) rest) :
    reason.BlamesCharacter position (front ++ rest) := by
  obtain ⟨before, c, after, rfl, rfl⟩ := h
  refine ⟨front ++ before, c, after, by simp, ?_⟩
  rw [byteLength_append, Nat.add_assoc]

/-- Where tokens cannot be read, a character is to blame. -/
theorem blamesCharacter_of_tokensFrom {position : Nat} {cs : List Char} {reason : ParseError}
    (hread : tokensFrom position cs = .error reason) : reason.BlamesCharacter position cs := by
  fun_induction tokensFrom position cs with
  | case1 => cases hread
  | case2 position cs ih => exact (ih (map_eq_error_iff.mp hread)).append ['|', '|']
  | case3 position cs ih => exact (ih (map_eq_error_iff.mp hread)).append ['&', '&']
  | case4 position cs ih => exact (ih (map_eq_error_iff.mp hread)).append ['(']
  | case5 position cs ih => exact (ih (map_eq_error_iff.mp hread)).append [')']
  | case6 position c cs _ _ _ _ hblank ih =>
      have hrest := ih hread
      rw [← utf8Size_of_isAsciiBlank hblank] at hrest
      exact hrest.append [c]
  | case7 position c cs =>
      cases hread
      exact ⟨[], c, cs, rfl, rfl⟩
  | case8 position c cs _ _ _ _ _ _ run _ ih =>
      have hcs : c :: cs = run ++ cs.dropWhile isValueChar :=
        congrArg (c :: ·) List.takeWhile_append_dropWhile.symm
      rw [hcs]
      exact (ih (map_eq_error_iff.mp hread)).append run

theorem tokensFrom_eq_nil_iff {position : Nat} {cs : List Char} :
    tokensFrom position cs = .ok [] ↔ ∀ c ∈ cs, Text.isAsciiBlank c = true := by
  constructor
  · intro hread
    cases spells_of_tokensFrom hread with
    | stop hblanks => exact hblanks
  · exact fun hblanks => tokensFrom_of_spells (.stop hblanks)

namespace Tree

/-- Tokens make an empty expression only where there are none. -/
theorem ofTokens_eq_empty_iff {tokens : List Token} :
    ofTokens tokens = .error .empty ↔ tokens = [] := by
  constructor
  · intro hempty
    cases hrun : Machine.start.run tokens with
    | error reason =>
        obtain ⟨before, token, after, next, rfl, hbefore, hstep⟩ :=
          Machine.run_eq_error_iff.mp hrun
        have hreads := Machine.run_reads Machine.reads_start hbefore
        have hfault := Machine.stepFault_of_step hreads hstep
        rw [ofTokens, hrun] at hempty
        cases hempty
        cases hfault
    | ok machine =>
        have hreads := Machine.run_reads Machine.reads_start hrun
        rw [ofTokens, hrun] at hempty
        have hfault := Machine.endFault_of_finish hreads hempty
        cases hfault with
        | empty hnothing => simpa using hnothing
  · rintro rfl
    rfl

theorem ofText_eq_empty_iff {raw : String} :
    ofText raw = .error .empty ↔ ∀ c ∈ raw.toList, Text.isAsciiBlank c = true := by
  rw [← tokensFrom_eq_nil_iff, ← tokens, ofText]
  cases hread : tokens raw with
  | error reason =>
      obtain ⟨before, c, after, -, rfl⟩ := blamesCharacter_of_tokensFrom hread
      constructor <;> (intro h; cases h)
  | ok read =>
      rw [Except.ok.injEq]
      exact ofTokens_eq_empty_iff

theorem pointsInto_of_ofText {raw : String} {reason : ParseError}
    (hfails : ofText raw = .error reason) : reason.PointsInto raw := by
  rw [ofText] at hfails
  cases hread : tokens raw with
  | error other =>
      rw [hread] at hfails
      cases hfails
      obtain ⟨before, c, after, hraw, rfl⟩ := blamesCharacter_of_tokensFrom hread
      have hplaces : Text.Places raw (byteLength before) _ (String.singleton c) _ :=
        Text.places_of_toList_eq (by simp) (by simpa using hraw)
      rw [Nat.zero_add]
      exact ⟨_, _, hplaces⟩
  | ok read =>
      rw [hread] at hfails
      exact pointsInto_of_run (spells_of_tokensFrom hread) rfl rfl Machine.reads_start (.nil .nil)
        hfails

/-- A value is called empty when it holds blanks alone, and every other error points at what it
blames. -/
theorem error_of_ofText (raw : String) :
    (ofText raw = .error .empty ↔ ∀ c ∈ raw.toList, Text.isAsciiBlank c = true) ∧
      ∀ reason, ofText raw = .error reason → reason.PointsInto raw :=
  ⟨ofText_eq_empty_iff, fun _ => pointsInto_of_ofText⟩

end Tree

namespace ErrorPlaces

/-- The opening parenthesis that lacks its partner is counted in bytes, two for each letter that is
not a plain one. -/
theorem pointsInto_unbalanced :
    Tree.ofText "(größe) && (ü || b" = .error (.unbalancedParenthesis 13) ∧
      (ParseError.unbalancedParenthesis 13).PointsInto "(größe) && (ü || b" := by
  have hfails : Tree.ofText "(größe) && (ü || b" = .error (.unbalancedParenthesis 13) := by
    decide +kernel
  exact ⟨hfails, (Tree.error_of_ofText _).2 _ hfails⟩

end ErrorPlaces

end FilterSql

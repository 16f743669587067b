/-
Beginnings of expressions.

Tokens that the parser takes one by one without a mistake are the beginning of an expression:
what the stacks wait for can be supplied, an operand and the partners of the parentheses that
are open.  A token that is a mistake is reported when it is taken, so nothing that follows it
makes a difference.
-/
import FilterSql.Proofs.Filter.ParserSteps
import FilterSql.Proofs.Filter.Tokens

namespace FilterSql

namespace Machine

/-- What stacks await, supplied, is the beginning of an expression. -/
theorem Awaits.exists_phrase {level : Level} {before : List TokenKind} {operators : List Token}
    {output : List Tree} (h : Awaits level before operators output) {phrase : List TokenKind}
    {tree : Tree} (hphrase : Phrase level phrase tree) :
    ∃ rest whole, Phrase .or (before ++ phrase ++ rest) whole := by
  -- On the stacks from the top down: with the phrase on its left, or the parentheses about it,
  -- what is supplied is what the rest of the stacks await.
  induction h generalizing phrase tree with
  | start => exact ⟨[], tree, by simpa using hphrase⟩
  | @group level before _ _ _ _ _ ih =>
      have hgroup := (Phrase.group hphrase).loosen level.strength_le_atom
      obtain ⟨rest, whole, hwhole⟩ := ih hgroup
      exact ⟨.rightParen :: rest, whole, by simpa using hwhole⟩
  | or _ hleft _ ih =>
      obtain ⟨rest, whole, hwhole⟩ := ih (.or hleft hphrase)
      exact ⟨rest, whole, by simpa using hwhole⟩
  | @and level _ _ _ _ _ _ _ hatom hleft _ ih =>
      have hlevel : level.strength ≤ Level.and.strength := by
        cases level with
        | atom => exact absurd rfl hatom
        | and => decide
        | or => decide
      obtain ⟨rest, whole, hwhole⟩ := ih ((Phrase.and hleft hphrase).loosen hlevel)
      exact ⟨rest, whole, by simpa using hwhole⟩

/-- Whatever has been taken so far is the beginning of an expression. -/
theorem Reads.exists_phrase {consumed : List TokenKind} {machine : Machine}
    (h : machine.Reads consumed) : ∃ rest tree, Phrase .or (consumed ++ rest) tree := by
  cases h with
  | @awaiting level _ _ hawaits =>
      have hoperand := (Phrase.value "null").loosen level.strength_le_atom
      obtain ⟨rest, whole, hwhole⟩ := hawaits.exists_phrase hoperand
      exact ⟨.value "null" :: rest, whole, by simpa using hwhole⟩
  | completed hcompletes =>
      cases hcompletes with
      | intro hawaits hphrase hlevel _ hconsumed =>
          subst hconsumed
          exact hawaits.exists_phrase (hphrase.loosen hlevel)

end Machine

namespace Tree

/-- An expression may begin with these tokens. -/
def IsViable (tokens : List Token) : Prop :=
  ∃ rest tree, ofTokens (tokens ++ rest) = .ok tree

theorem isViable_of_run {tokens : List Token} {machine : Machine}
    (hrun : Machine.start.run tokens = .ok machine) : IsViable tokens := by
  have hreads := Machine.run_reads Machine.reads_start hrun
  obtain ⟨rest, tree, hphrase⟩ := hreads.exists_phrase
  refine ⟨rest.map fun kind => ⟨kind, 0⟩, tree, ofTokens_of_phrase ?_⟩
  have hkinds : (rest.map fun kind => Token.mk kind 0).map Token.kind = rest := by
    rw [List.map_map]
    exact List.map_id rest
  rwa [List.map_append, hkinds]

theorem ofTokens_append_of_run {tokens : List Token} {reason : ParseError}
    (hrun : Machine.start.run tokens = .error reason) (rest : List Token) :
    ofTokens (tokens ++ rest) = .error reason := by
  rw [ofTokens, Machine.run_append, hrun]
  rfl

/-- Either all tokens are taken, and an expression may begin with them, or one of them is
reported: with the tokens before it an expression may begin, with this one the same mistake is
found whatever follows. -/
theorem isViable_or_forall_eq_error (tokens : List Token) :
    (IsViable tokens ∧ ∃ machine, Machine.start.run tokens = .ok machine) ∨
      ∃ reason, Machine.start.run tokens = .error reason ∧
        (∀ rest, ofTokens (tokens ++ rest) = .error reason) ∧
        ∃ before token after, tokens = before ++ token :: after ∧ IsViable before ∧
          ∀ rest, ofTokens (before ++ token :: rest) = .error reason := by
  cases hrun : Machine.start.run tokens with
  | ok machine => exact Or.inl ⟨isViable_of_run hrun, machine, rfl⟩
  | error reason =>
      obtain ⟨before, token, after, next, htokens, hbefore, hstep⟩ :=
        Machine.run_eq_error_iff.mp hrun
      refine Or.inr ⟨reason, rfl, ofTokens_append_of_run hrun, before, token, after, htokens,
        isViable_of_run hbefore, fun rest => ?_⟩
      have hrest : Machine.start.run (before ++ token :: rest) = .error reason :=
        Machine.run_eq_error_iff.mpr ⟨before, token, rest, next, rfl, hbefore, hstep⟩
      simpa using ofTokens_append_of_run hrest []

end Tree

end FilterSql

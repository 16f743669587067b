/-
What the parser does with a token, and why it fails.

Between two tokens every operator that waits has its left operand below it, and after a phrase
the one on top has its right operand as well.  Reducing therefore never fails: what is refused
is a token where none of its kind can stand, an operator that lacks an operand, or a parenthesis
without its partner.  A token that is taken comes on top of the operators that wait, and takes
off those that it finishes.
-/
import FilterSql.Proofs.Filter.Grammar
import FilterSql.Proofs.Traversal

namespace FilterSql

/-- A token that joins two operands. -/
def Token.IsOperator (token : Token) : Prop :=
  token.kind = .and ∨ token.kind = .or

namespace Token

variable {token : Token}

theorem isOperator_of_precedence? {precedence : Nat}
    (h : token.kind.precedence?.any (precedence ≤ ·) = true) : token.IsOperator := by
  cases hkind : token.kind with
  | and => exact Or.inl hkind
  | or => exact Or.inr hkind
  | leftParen | rightParen | value =>
      rw [hkind] at h
      cases h

theorem IsOperator.exists_precedence? (h : token.IsOperator) :
    ∃ precedence ≤ 3, token.kind.precedence? = some precedence := by
  rcases h with hkind | hkind
  · exact ⟨2, by decide, by rw [hkind]; rfl⟩
  · exact ⟨1, by decide, by rw [hkind]; rfl⟩

end Token

namespace Machine

/-- After a phrase the operator on top has both of its operands. -/
theorem Completes.exists_reduce {consumed : List TokenKind} {bound : Nat} {operator : Token}
    {operators : List Token} {output : List Tree} (hoperator : operator.IsOperator)
    (h : Completes consumed bound (operator :: operators) output) :
    ∃ result, reduce operator output = .ok result := by
  cases h with
  | intro hawaits =>
  cases hawaits with
  | group _ hkind =>
      rw [Token.IsOperator, hkind] at hoperator
      rcases hoperator with hoperator | hoperator <;> cases hoperator
  | or _ _ hkind | and _ _ _ hkind =>
      rw [reduce, hkind]
      exact ⟨_, rfl⟩

/-- Reducing after a phrase takes operators off the top and never fails. -/
theorem Completes.exists_reduceTighter {precedence : Nat} {consumed : List TokenKind}
    {operators : List Token} {output : List Tree}
    (h : Completes consumed precedence operators output) :
    ∃ above rest result, operators = above ++ rest ∧ (∀ operator ∈ above, operator.IsOperator) ∧
      reduceTighter precedence operators output = .ok (rest, result) := by
  induction operators generalizing output with
  | nil => exact ⟨[], [], output, rfl, by simp, rfl⟩
  | cons operator operators ih =>
      cases htop : operator.kind.precedence?.any (precedence ≤ ·) with
      | false =>
          have hsettled : Settled precedence (operator :: operators) := by
            intro other hother
            cases hother
            exact htop
          exact ⟨[], _, output, rfl, by simp, reduceTighter_of_settled hsettled output⟩
      | true =>
          have hoperator := Token.isOperator_of_precedence? htop
          obtain ⟨reduced, hreduce⟩ := h.exists_reduce hoperator
          obtain ⟨above, rest, result, rfl, habove, hrest⟩ :=
            ih (reduce_completes htop h hreduce)
          refine ⟨operator :: above, rest, result, rfl,
            List.forall_mem_cons.mpr ⟨hoperator, habove⟩, ?_⟩
          rw [reduceTighter_cons htop, hreduce]
          exact hrest

/-- After a phrase only operators wait, and reducing leaves one tree, or they wait above an
opening parenthesis. -/
theorem Completes.cases_group {consumed : List TokenKind} {operators : List Token}
    {output : List Tree} (h : Completes consumed 3 operators output) :
    ((∀ operator ∈ operators, operator.IsOperator) ∧
      ∃ tree, reduceTighter 1 operators output = .ok ([], [tree])) ∨
      ∃ above opening below, operators = above ++ opening :: below ∧
        (∀ operator ∈ above, operator.IsOperator) ∧ opening.kind = .leftParen ∧
        ∃ result, reduceTighter 1 operators output = .ok (opening :: below, result) := by
  have hone := h.mono (show 1 ≤ 3 by decide)
  obtain ⟨above, rest, result, rfl, habove, hreduce⟩ := hone.exists_reduceTighter
  obtain ⟨hsettled, hrest⟩ := reduceTighter_completes hone hreduce
  rcases hrest.of_settled hsettled with ⟨tree, rfl, rfl, _⟩ | ⟨opening, below, rfl, hopening, _⟩
  · exact Or.inl ⟨by simpa using habove, tree, hreduce⟩
  · exact Or.inr ⟨above, opening, below, rfl, habove, hopening, result, hreduce⟩

/-- The operators that wait after a token. -/
inductive Shifts (machine : Machine) (token : Token) : List Token → Prop
  | value {text : String} (htoken : token.kind = .value text) :
      Shifts machine token machine.operators
  | opening (htoken : token.kind = .leftParen) : Shifts machine token (token :: machine.operators)
  | closing {above below : List Token} {opening : Token} (htoken : token.kind = .rightParen)
      (hoperators : machine.operators = above ++ opening :: below)
      (habove : ∀ operator ∈ above, operator.IsOperator) (hopening : opening.kind = .leftParen) :
      Shifts machine token below
  | operator {above rest : List Token} (htoken : token.IsOperator)
      (hoperators : machine.operators = above ++ rest)
      (habove : ∀ operator ∈ above, operator.IsOperator) : Shifts machine token (token :: rest)

/-- An operator after a phrase is taken. -/
theorem Completes.exists_step {consumed : List TokenKind} {operators : List Token}
    {output : List Tree} {token : Token} (hoperator : token.IsOperator)
    (h : Completes consumed 3 operators output) :
    ∃ next, step ⟨output, operators, false⟩ token = .ok next ∧
      Shifts ⟨output, operators, false⟩ token next.operators := by
  obtain ⟨precedence, hle, htoken⟩ := hoperator.exists_precedence?
  obtain ⟨above, rest, result, hoperators, habove, hreduce⟩ := (h.mono hle).exists_reduceTighter
  refine ⟨⟨result, token :: rest, true⟩, ?_, .operator hoperator hoperators habove⟩
  rw [step_operator htoken, hreduce]
  rfl

/-- A token that is taken changes the operators in one of these ways. -/
theorem shifts_of_step {consumed : List TokenKind} {machine next : Machine} {token : Token}
    (h : machine.Reads consumed) (hstep : machine.step token = .ok next) :
    machine.Shifts token next.operators := by
  cases h with
  | awaiting hawaits =>
      cases hkind : token.kind with
      | value text =>
          simp only [step, hkind, ↓reduceIte, Except.ok.injEq] at hstep
          subst hstep
          exact .value hkind
      | leftParen =>
          simp only [step, hkind, ↓reduceIte, Except.ok.injEq] at hstep
          subst hstep
          exact .opening hkind
      | rightParen | and | or => simp [step, hkind] at hstep
  | @completed operators output hcompletes =>
      cases hkind : token.kind with
      | value text | leftParen => simp [step, hkind] at hstep
      | rightParen =>
          rw [step_rightParen hkind, closeGroup_bind] at hstep
          rcases hcompletes.cases_group with
            ⟨_, tree, hreduce⟩ | ⟨above, opening, below, hoperators, habove, hopening, _, hreduce⟩
          · simp [hreduce, Except.bind, closeGroup] at hstep
          · simp only [hreduce, Except.bind, closeGroup, hopening, ↓reduceIte,
              Except.ok.injEq] at hstep
            subst hstep
            exact .closing hkind hoperators habove hopening
      | and | or =>
          have hoperator : token.IsOperator := by simp [Token.IsOperator, hkind]
          obtain ⟨other, hother, hshifts⟩ := hcompletes.exists_step hoperator
          rw [hother] at hstep
          cases hstep
          exact hshifts

/-- What is wrong with a token in a state. -/
inductive StepFault (machine : Machine) (token : Token) : ParseError → Prop
  | unexpected : StepFault machine token token.unexpected
  | lacksOperand {operator : Token} (hoperator : operator.IsOperator)
      (hwaits : operator ∈ token :: machine.operators) :
      StepFault machine token operator.lacksOperand
  | unbalanced (hclosing : token.kind = .rightParen)
      (hoperators : ∀ operator ∈ machine.operators, operator.IsOperator) :
      StepFault machine token token.unbalanced

/-- A token is refused for one of these reasons. -/
theorem stepFault_of_step {consumed : List TokenKind} {machine : Machine} {token : Token}
    {reason : ParseError} (h : machine.Reads consumed)
    (hstep : machine.step token = .error reason) : machine.StepFault token reason := by
  cases h with
  | awaiting hawaits =>
      cases hkind : token.kind with
      | value text | leftParen => simp [step, hkind] at hstep
      | rightParen =>
          simp only [step, hkind, ↓reduceIte, Except.error.injEq] at hstep
          subst hstep
          cases hawaits with
          | start => exact .unbalanced hkind (by simp)
          | group _ hopening =>
              rw [danglingClose, if_pos hopening]
              exact .unexpected
          | or _ _ hor =>
              rw [danglingClose, if_neg (by simp [hor])]
              exact .lacksOperand (Or.inr hor) (by simp)
          | and _ _ _ hand =>
              rw [danglingClose, if_neg (by simp [hand])]
              exact .lacksOperand (Or.inl hand) (by simp)
      | and | or =>
          have hoperator : token.IsOperator := by simp [Token.IsOperator, hkind]
          simp only [step, hkind, ↓reduceIte, Except.error.injEq] at hstep
          subst hstep
          exact .lacksOperand hoperator List.mem_cons_self
  | @completed operators output hcompletes =>
      cases hkind : token.kind with
      | value text | leftParen =>
          simp only [step, hkind, Bool.false_eq_true, ↓reduceIte, Except.error.injEq] at hstep
          subst hstep
          exact .unexpected
      | rightParen =>
          rw [step_rightParen hkind, closeGroup_bind] at hstep
          rcases hcompletes.cases_group with
            ⟨hoperators, tree, hreduce⟩ | ⟨_, opening, below, _, _, hopening, result, hreduce⟩
          · simp only [hreduce, Except.bind, closeGroup, Except.error.injEq] at hstep
            subst hstep
            exact .unbalanced hkind hoperators
          · simp [hreduce, Except.bind, closeGroup, hopening] at hstep
      | and | or =>
          have hoperator : token.IsOperator := by simp [Token.IsOperator, hkind]
          obtain ⟨next, hnext, -⟩ := hcompletes.exists_step hoperator
          rw [hnext] at hstep
          cases hstep

/-- Tokens fail as the first of them that the machine does not take. -/
theorem run_eq_error_iff {machine : Machine} {tokens : List Token} {reason : ParseError} :
    machine.run tokens = .error reason ↔ ∃ before token after next,
      tokens = before ++ token :: after ∧ machine.run before = .ok next ∧
        next.step token = .error reason := by
  constructor
  · intro hrun
    induction tokens generalizing machine with
    | nil => cases hrun
    | cons token tokens ih =>
        rw [run_cons] at hrun
        cases hstep : machine.step token with
        | error other =>
            rw [hstep] at hrun
            cases hrun
            exact ⟨[], token, tokens, machine, rfl, rfl, hstep⟩
        | ok middle =>
            rw [hstep] at hrun
            obtain ⟨before, wrong, after, next, rfl, hbefore, hwrong⟩ := ih hrun
            refine ⟨token :: before, wrong, after, next, rfl, ?_, hwrong⟩
            rw [run_cons, hstep]
            exact hbefore
  · rintro ⟨before, token, after, next, rfl, hbefore, hstep⟩
    rw [run_append, hbefore]
    change next.run (token :: after) = .error reason
    rw [run_cons, hstep]
    rfl

/-- What is wrong with an end of the tokens. -/
inductive EndFault (consumed : List TokenKind) (machine : Machine) : ParseError → Prop
  | empty (hnothing : consumed = []) : EndFault consumed machine .empty
  | lacksOperand {operator : Token} (hoperator : operator.IsOperator)
      (hwaits : operator ∈ machine.operators) :
      EndFault consumed machine operator.lacksOperand
  | unbalanced {above below : List Token} {opening : Token}
      (hoperators : machine.operators = above ++ opening :: below)
      (habove : ∀ operator ∈ above, operator.IsOperator) (hopening : opening.kind = .leftParen) :
      EndFault consumed machine opening.unbalanced

/-- An end is refused for one of these reasons. -/
theorem endFault_of_finish {consumed : List TokenKind} {machine : Machine} {reason : ParseError}
    (h : machine.Reads consumed) (hfinish : machine.finish = .error reason) :
    EndFault consumed machine reason := by
  cases h with
  | awaiting hawaits =>
      simp only [finish, ↓reduceIte, Except.error.injEq] at hfinish
      subst hfinish
      cases hawaits with
      | start => exact .empty rfl
      | group _ hopening =>
          rw [earlyEnd, if_pos hopening]
          exact .unbalanced (List.nil_append _).symm (by simp) hopening
      | or _ _ hor =>
          rw [earlyEnd, if_neg (by simp [hor])]
          exact .lacksOperand (Or.inr hor) List.mem_cons_self
      | and _ _ _ hand =>
          rw [earlyEnd, if_neg (by simp [hand])]
          exact .lacksOperand (Or.inl hand) List.mem_cons_self
  | @completed operators output hcompletes =>
      simp only [finish, Bool.false_eq_true, ↓reduceIte] at hfinish
      rw [reduceAll_bind] at hfinish
      rcases hcompletes.cases_group with
        ⟨_, tree, hreduce⟩ | ⟨above, opening, below, hoperators, habove, hopening, _, hreduce⟩
      · simp [hreduce, bind, Except.bind, reduceAll] at hfinish
      · simp only [hreduce, bind, Except.bind, reduceAll, hopening, ↓reduceIte,
          Except.error.injEq] at hfinish
        subst hfinish
        exact .unbalanced hoperators habove hopening

end Machine

end FilterSql

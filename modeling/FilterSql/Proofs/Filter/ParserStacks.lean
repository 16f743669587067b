/-
What stands on the stacks of the parser.

Between two tokens there is one tree for every operator that waits, and one more after a phrase.
Nothing but operators and opening parentheses wait, and above a parenthesis each operator binds
more tightly than the one below it.  Reducing keeps this, so it always finds an operator and the
two trees that it joins: a loop of the parser ends at an operator that is to wait longer, at a
parenthesis or at the bottom, and never because a reduction fails.
-/
import Mathlib.Data.List.Chain
import Mathlib.Logic.Relation
import FilterSql.Proofs.Filter.ParserSteps

namespace FilterSql

open Relation (ReflTransGen)

namespace Token

instance (token : Token) : Decidable token.IsOperator :=
  inferInstanceAs (Decidable (token.kind = .and ∨ token.kind = .or))

theorem not_isOperator_of_leftParen {token : Token} (htoken : token.kind = .leftParen) :
    ¬ token.IsOperator := by
  simp [IsOperator, htoken]

/-- Both are operators, and the first one binds more tightly. -/
def BindsTighter (upper lower : Token) : Prop :=
  ∃ low high, lower.kind.precedence? = some low ∧ upper.kind.precedence? = some high ∧ low < high

instance : Trans BindsTighter BindsTighter BindsTighter where
  trans := by
    rintro upper middle lower ⟨between, high, hmiddle, hupper, hhigh⟩
      ⟨low, other, hlower, hother, hlow⟩
    obtain rfl : between = other := by simpa [hmiddle] using hother
    exact ⟨low, high, hlower, hupper, Nat.lt_trans hlow hhigh⟩

/-- How neighbours stand on the stack of operators: only a parenthesis starts again. -/
def StandsOn (upper lower : Token) : Prop :=
  upper.kind = .leftParen ∨ lower.kind = .leftParen ∨ upper.BindsTighter lower

end Token

/-- Operators that stand on each other without a parenthesis bind more tightly toward the top. -/
theorem pairwise_bindsTighter_of_isChain {operators group : List Token}
    (hchain : operators.IsChain Token.StandsOn) (hgroup : group <:+: operators)
    (hopen : ∀ token ∈ group, token.kind ≠ .leftParen) : group.Pairwise Token.BindsTighter := by
  rw [← List.isChain_iff_pairwise]
  have hbelow := hchain.infix hgroup
  induction group with
  | nil => exact .nil
  | cons upper group ih =>
      rw [List.isChain_cons] at hbelow ⊢
      rw [List.forall_mem_cons] at hopen
      refine ⟨fun lower hlower => ?_, ?_⟩
      · have hmem := List.mem_of_head? hlower
        exact ((hbelow.1 lower hlower).resolve_left hopen.1).resolve_left (hopen.2 lower hmem)
      · exact ih ((List.suffix_cons upper group).isInfix.trans hgroup) hopen.2 hbelow.2

namespace Machine

/-- The shape of the stacks. -/
structure IsStacked (machine : Machine) : Prop where
  length_output : machine.output.length =
    machine.operators.countP (·.IsOperator) + if machine.expectsOperand then 0 else 1
  kinds : ∀ token ∈ machine.operators, token.IsOperator ∨ token.kind = .leftParen
  tightens : machine.operators.IsChain Token.StandsOn

theorem isStacked_start : start.IsStacked where
  length_output := rfl
  kinds := by simp [start]
  tightens := .nil

/-- A turn of a loop of the parser: the operator on top, which is no parenthesis, is reduced by. -/
inductive Turn : Machine → Machine → Prop
  | reduce {operator : Token} {operators : List Token} {output result : List Tree}
      (hkind : operator.kind ≠ .leftParen) (hreduce : reduce operator output = .ok result) :
      Turn ⟨output, operator :: operators, false⟩ ⟨result, operators, false⟩

theorem operators_suffix_of_turns {machine next : Machine}
    (hturns : ReflTransGen Turn machine next) : next.operators <:+ machine.operators := by
  induction hturns with
  | refl => exact List.suffix_rfl
  | tail _ hturn ih =>
      cases hturn with
      | reduce => exact (List.suffix_cons _ _).trans ih

/-- Where a loop can go on, an operator is on top and its two trees are there. -/
def FindsOperands (machine : Machine) : Prop :=
  ∀ operator operators output, machine = ⟨output, operator :: operators, false⟩ →
    operator.kind ≠ .leftParen →
      operator.IsOperator ∧ ∃ right left rest, output = right :: left :: rest

namespace IsStacked

theorem findsOperands {machine : Machine} (h : machine.IsStacked) : machine.FindsOperands := by
  rintro operator operators output rfl hkind
  have hoperator := (h.kinds operator List.mem_cons_self).resolve_right hkind
  have hlength := h.length_output
  simp only [List.countP_cons, hoperator, decide_true, ↓reduceIte, Bool.false_eq_true] at hlength
  match output, hlength with
  | right :: left :: rest, _ => exact ⟨hoperator, right, left, rest, rfl⟩

variable {operator : Token} {operators : List Token} {output : List Tree}

/-- Reducing succeeds, and the stacks keep their shape. -/
theorem exists_reduce (h : IsStacked ⟨output, operator :: operators, false⟩)
    (hkind : operator.kind ≠ .leftParen) :
    ∃ result, reduce operator output = .ok result ∧ IsStacked ⟨result, operators, false⟩ := by
  obtain ⟨hoperator, right, left, rest, rfl⟩ := h.findsOperands _ _ _ rfl hkind
  obtain ⟨tree, htree⟩ : ∃ tree, reduce operator (right :: left :: rest) = .ok (tree :: rest) := by
    rcases hoperator with hand | hor
    · exact ⟨_, by rw [reduce, hand]⟩
    · exact ⟨_, by rw [reduce, hor]⟩
  refine ⟨tree :: rest, htree, ?_, ?_, ?_⟩
  · have hlength := h.length_output
    simp only [List.countP_cons, hoperator, decide_true, ↓reduceIte, Bool.false_eq_true,
      List.length_cons] at hlength ⊢
    omega
  · exact fun token htoken => h.kinds token (List.mem_cons_of_mem _ htoken)
  · exact h.tightens.tail

theorem turn {machine next : Machine} (h : machine.IsStacked) (hturn : Turn machine next) :
    next.IsStacked := by
  cases hturn with
  | reduce hkind hreduce =>
      obtain ⟨result, hresult, hstacked⟩ := h.exists_reduce hkind
      rw [hreduce] at hresult
      cases hresult
      exact hstacked

theorem turns {machine next : Machine} (h : machine.IsStacked)
    (hturns : ReflTransGen Turn machine next) : next.IsStacked := by
  induction hturns with
  | refl => exact h
  | tail _ hturn ih => exact ih.turn hturn

/-- Reducing by the tighter operators never fails. -/
theorem exists_reduceTighter (precedence : Nat) (h : IsStacked ⟨output, operators, false⟩) :
    ∃ rest result, reduceTighter precedence operators output = .ok (rest, result) ∧
      ReflTransGen Turn ⟨output, operators, false⟩ ⟨result, rest, false⟩ ∧
      Settled precedence rest := by
  induction operators generalizing output with
  | nil => exact ⟨[], output, rfl, .refl, by simp [Settled]⟩
  | cons operator operators ih =>
      cases htop : operator.kind.precedence?.any (precedence ≤ ·) with
      | false =>
          have hsettled : Settled precedence (operator :: operators) := by
            intro other hother
            cases hother
            exact htop
          exact ⟨_, output, reduceTighter_of_settled hsettled output, .refl, hsettled⟩
      | true =>
          have hkind : operator.kind ≠ .leftParen := fun hopening =>
            Token.not_isOperator_of_leftParen hopening (Token.isOperator_of_precedence? htop)
          obtain ⟨reduced, hreduce, hstacked⟩ := h.exists_reduce hkind
          obtain ⟨rest, result, hrest, hturns, hsettled⟩ := ih hstacked
          refine ⟨rest, result, ?_, .head (.reduce hkind hreduce) hturns, hsettled⟩
          rw [reduceTighter_cons htop, hreduce]
          exact hrest

/-- Reducing by all operators ends with one tree, or at an opening parenthesis. -/
theorem cases_reduceTighter (h : IsStacked ⟨output, operators, false⟩) :
    (∃ root, reduceTighter 1 operators output = .ok ([], [root]) ∧
        ReflTransGen Turn ⟨output, operators, false⟩ ⟨[root], [], false⟩) ∨
      ∃ opening below result, opening.kind = .leftParen ∧
        reduceTighter 1 operators output = .ok (opening :: below, result) ∧
        ReflTransGen Turn ⟨output, operators, false⟩ ⟨result, opening :: below, false⟩ := by
  obtain ⟨rest, result, hreduce, hturns, hsettled⟩ := h.exists_reduceTighter 1
  have hstacked := h.turns hturns
  cases rest with
  | nil =>
      obtain ⟨root, rfl⟩ := List.length_eq_one_iff.mp hstacked.length_output
      exact .inl ⟨root, hreduce, hturns⟩
  | cons opening below =>
      refine .inr ⟨opening, below, result, ?_, hreduce, hturns⟩
      refine (hstacked.kinds opening List.mem_cons_self).resolve_left fun hoperator => ?_
      have htop := hsettled opening rfl
      rcases hoperator with hkind | hkind <;> simp [hkind, TokenKind.precedence?] at htop

/-- A parenthesis may be taken off the top. -/
theorem pop (h : IsStacked ⟨output, operator :: operators, false⟩)
    (hopening : operator.kind = .leftParen) : IsStacked ⟨output, operators, false⟩ where
  length_output := by
    have hlength := h.length_output
    rwa [List.countP_cons_of_neg (by simp [Token.not_isOperator_of_leftParen hopening])] at hlength
  kinds := fun token htoken => h.kinds token (List.mem_cons_of_mem _ htoken)
  tightens := h.tightens.tail

/-- An operator may be put on what binds less tightly, and then awaits its second operand. -/
theorem push {precedence : Nat} (hoperator : operator.kind.precedence? = some precedence)
    (hsettled : Settled precedence operators) (h : IsStacked ⟨output, operators, false⟩) :
    IsStacked ⟨output, operator :: operators, true⟩ := by
  have htop : operator.kind.precedence?.any (precedence ≤ ·) = true := by simp [hoperator]
  have hjoins := Token.isOperator_of_precedence? htop
  refine ⟨?_, List.forall_mem_cons.mpr ⟨.inl hjoins, h.kinds⟩, ?_⟩
  · rw [List.countP_cons_of_pos (by simpa using hjoins)]
    exact h.length_output
  · rw [List.isChain_cons]
    refine ⟨fun lower hlower => ?_, h.tightens⟩
    rcases h.kinds lower (List.mem_of_head? hlower) with hlow | hopening
    · obtain ⟨low, -, hprecedence⟩ := hlow.exists_precedence?
      have hless := hsettled lower hlower
      simp only [hprecedence, Option.any_some, decide_eq_false_iff_not, Nat.not_le] at hless
      exact .inr (.inr ⟨low, precedence, hprecedence, hoperator, hless⟩)
    · exact .inr (.inl hopening)

/-- An operator after a phrase is taken. -/
theorem exists_step {token : Token} (htoken : token.IsOperator)
    (h : IsStacked ⟨output, operators, false⟩) :
    ∃ next, step ⟨output, operators, false⟩ token = .ok next ∧ next.IsStacked := by
  obtain ⟨precedence, -, hprecedence⟩ := htoken.exists_precedence?
  obtain ⟨rest, result, hreduce, hturns, hsettled⟩ := h.exists_reduceTighter precedence
  refine ⟨⟨result, token :: rest, true⟩, ?_, (h.turns hturns).push hprecedence hsettled⟩
  rw [step_operator hprecedence, hreduce]
  rfl

/-- A closing parenthesis after a phrase is taken with its partner, or has none. -/
theorem cases_step {token : Token} (htoken : token.kind = .rightParen)
    (h : IsStacked ⟨output, operators, false⟩) :
    (∃ next, step ⟨output, operators, false⟩ token = .ok next ∧ next.IsStacked) ∨
      step ⟨output, operators, false⟩ token = .error token.unbalanced := by
  rw [step_rightParen htoken, closeGroup_bind]
  rcases h.cases_reduceTighter with
    ⟨root, hreduce, -⟩ | ⟨opening, below, result, hopening, hreduce, hturns⟩
  · refine .inr ?_
    rw [hreduce]
    rfl
  · refine .inl ⟨⟨result, below, false⟩, ?_, (h.turns hturns).pop hopening⟩
    simp [hreduce, Except.bind, closeGroup, hopening]

/-- A token that is taken leaves stacks of this shape. -/
theorem step {machine next : Machine} {token : Token} (h : machine.IsStacked)
    (hstep : machine.step token = .ok next) : next.IsStacked := by
  obtain ⟨output, operators, expectsOperand⟩ := machine
  cases expectsOperand with
  | true =>
      cases hkind : token.kind with
      | value text =>
          simp only [Machine.step, hkind, ↓reduceIte, Except.ok.injEq] at hstep
          subst hstep
          exact ⟨congrArg (· + 1) h.length_output, h.kinds, h.tightens⟩
      | leftParen =>
          simp only [Machine.step, hkind, ↓reduceIte, Except.ok.injEq] at hstep
          subst hstep
          refine ⟨?_, List.forall_mem_cons.mpr ⟨.inr hkind, h.kinds⟩, ?_⟩
          · rw [List.countP_cons_of_neg (by simp [Token.not_isOperator_of_leftParen hkind])]
            exact h.length_output
          · exact List.isChain_cons.mpr ⟨fun _ _ => .inl hkind, h.tightens⟩
      | rightParen | and | or => simp [Machine.step, hkind] at hstep
  | false =>
      cases hkind : token.kind with
      | value text | leftParen => simp [Machine.step, hkind] at hstep
      | rightParen =>
          rcases h.cases_step hkind with ⟨other, hother, hstacked⟩ | herror
          · rw [hother] at hstep
            cases hstep
            exact hstacked
          · rw [herror] at hstep
            cases hstep
      | and | or =>
          have hoperator : token.IsOperator := by simp [Token.IsOperator, hkind]
          obtain ⟨other, hother, hstacked⟩ := h.exists_step hoperator
          rw [hother] at hstep
          cases hstep
          exact hstacked

theorem run {machine next : Machine} {tokens : List Token} (h : machine.IsStacked)
    (hrun : machine.run tokens = .ok next) : next.IsStacked := by
  induction tokens generalizing machine with
  | nil =>
      cases hrun
      exact h
  | cons token tokens ih =>
      rw [run_cons] at hrun
      cases hstep : machine.step token with
      | error reason => simp [hstep, Except.bind] at hrun
      | ok middle =>
          rw [hstep] at hrun
          exact ih (h.step hstep) hrun

/-- The end of the tokens after a phrase: one tree is left and nothing else, or a parenthesis
has no partner. -/
theorem cases_finish (h : IsStacked ⟨output, operators, false⟩) :
    (∃ root, ReflTransGen Turn ⟨output, operators, false⟩ ⟨[root], [], false⟩ ∧
        finish ⟨output, operators, false⟩ = .ok root) ∨
      ∃ opening ∈ operators, opening.kind = .leftParen ∧
        finish ⟨output, operators, false⟩ = .error opening.unbalanced := by
  simp only [finish, Bool.false_eq_true, ↓reduceIte]
  rw [reduceAll_bind]
  rcases h.cases_reduceTighter with
    ⟨root, hreduce, hturns⟩ | ⟨opening, below, result, hopening, hreduce, hturns⟩
  · exact .inl ⟨root, hturns, by simp [hreduce, bind, Except.bind, reduceAll]⟩
  · have hmem : opening ∈ operators :=
      (operators_suffix_of_turns hturns).subset List.mem_cons_self
    exact .inr ⟨opening, hmem, hopening, by
      simp [hreduce, bind, Except.bind, reduceAll, hopening]⟩

end IsStacked

/-- After any tokens that were taken the stacks have this shape, and they keep it while a loop
goes on, so every reduction finds an operator and its two trees.  An operator after a phrase is
therefore taken, a closing parenthesis fails only without a partner, and so does the end of the
tokens; where it succeeds, the tree is all that is left. -/
theorem isStacked_of_run {tokens : List Token} {machine : Machine}
    (hrun : start.run tokens = .ok machine) :
    machine.IsStacked ∧
      (∀ group, group <:+: machine.operators → (∀ token ∈ group, token.kind ≠ .leftParen) →
        group.Pairwise Token.BindsTighter) ∧
      (∀ state, ReflTransGen Turn machine state → state.IsStacked ∧ state.FindsOperands) ∧
      (machine.expectsOperand = false →
        (∀ token, token.IsOperator → ∃ next, machine.step token = .ok next) ∧
        (∀ token, token.kind = .rightParen →
          (∃ next, machine.step token = .ok next) ∨
            machine.step token = .error token.unbalanced) ∧
        ((∃ root, machine.finish = .ok root) ∨
          ∃ opening ∈ machine.operators, opening.kind = .leftParen ∧
            machine.finish = .error opening.unbalanced)) ∧
      ∀ root, machine.finish = .ok root → ReflTransGen Turn machine ⟨[root], [], false⟩ := by
  have hstacked := isStacked_start.run hrun
  refine ⟨hstacked, fun _ => pairwise_bindsTighter_of_isChain hstacked.tightens, ?_, ?_, ?_⟩
  · intro state hturns
    exact ⟨hstacked.turns hturns, (hstacked.turns hturns).findsOperands⟩
  · obtain ⟨output, operators, expectsOperand⟩ := machine
    rintro rfl
    refine ⟨fun token htoken => ?_, fun token htoken => ?_, ?_⟩
    · obtain ⟨next, hnext, -⟩ := hstacked.exists_step htoken
      exact ⟨next, hnext⟩
    · exact (hstacked.cases_step htoken).imp_left fun ⟨next, hnext, _⟩ => ⟨next, hnext⟩
    · exact hstacked.cases_finish.imp_left fun ⟨root, _, hroot⟩ => ⟨root, hroot⟩
  · obtain ⟨output, operators, expectsOperand⟩ := machine
    intro root hroot
    cases expectsOperand with
    | true => simp [finish] at hroot
    | false =>
        rcases hstacked.cases_finish with ⟨other, hturns, hother⟩ | ⟨opening, -, -, herror⟩
        · rw [hother] at hroot
          cases hroot
          exact hturns
        · rw [herror] at hroot
          cases hroot

end Machine

namespace ParserStacks

open Machine (Turn)

/-- `a||(b)&&c` -/
def mixed : List Token :=
  [⟨.value "a", 0⟩, ⟨.or, 1⟩, ⟨.leftParen, 3⟩, ⟨.value "b", 4⟩, ⟨.rightParen, 5⟩, ⟨.and, 6⟩,
    ⟨.value "c", 8⟩]

/-- Both operators wait. -/
def waiting : Machine :=
  ⟨[.leaf "c", .leaf "b", .leaf "a"], [⟨.and, 6⟩, ⟨.or, 1⟩], false⟩

def root : Tree :=
  .or (.leaf "a") (.and (.leaf "b") (.leaf "c"))

theorem isStacked_waiting :
    Machine.start.run mixed = .ok waiting ∧ waiting.IsStacked ∧
      waiting.operators.Pairwise Token.BindsTighter ∧ waiting.FindsOperands ∧
      (∃ next, waiting.step ⟨.or, 9⟩ = .ok next) ∧
      waiting.step ⟨.rightParen, 9⟩ = .error (.unbalancedParenthesis 9) ∧
      waiting.finish = .ok root ∧ ReflTransGen Turn waiting ⟨[root], [], false⟩ := by
  have hrun : Machine.start.run mixed = .ok waiting := rfl
  obtain ⟨hstacked, hgroups, hturns, hphrase, hfinish⟩ := Machine.isStacked_of_run hrun
  obtain ⟨hoperators, hclosing, -⟩ := hphrase rfl
  have hroot : waiting.finish = .ok root := rfl
  refine ⟨hrun, hstacked, hgroups _ List.infix_rfl (by decide), (hturns waiting .refl).2,
    hoperators ⟨.or, 9⟩ (.inr rfl), ?_, hroot, hfinish root hroot⟩
  refine (hclosing ⟨.rightParen, 9⟩ rfl).resolve_left ?_
  rintro ⟨next, hnext⟩
  cases hnext

end ParserStacks

end FilterSql

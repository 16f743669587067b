/-
The grammar of filter expressions, and the parser as its exact reader.

`&&` binds more tightly than `||`, both join from the left, and a group in parentheses
stands wherever a value can.  Between two tokens the stacks of the parser hold a
derivation under way: each operator on its stack waits for a phrase that binds more
tightly than itself, and the tree below it is the phrase on its left.
-/
import FilterSql.Filter.Tree

namespace FilterSql

/-- The phrases of the grammar: operands, operands under `&&`, and those under `||`. -/
inductive Level
  | atom
  | and
  | or
deriving DecidableEq, Repr

/-- The value that a token stands for. -/
def TokenKind.value? : TokenKind → Option String
  | value text => some text
  | _ => none

/-- The tokens of a phrase and its tree.  A longer phrase grows at its right end, so both
operators join from the left. -/
inductive Phrase : Level → List TokenKind → Tree → Prop
  | value (text : String) : Phrase .atom [.value text] (.leaf text)
  | group {inner : List TokenKind} {tree : Tree} (h : Phrase .or inner tree) :
      Phrase .atom (.leftParen :: inner ++ [.rightParen]) tree
  | ofAtom {phrase : List TokenKind} {tree : Tree} (h : Phrase .atom phrase tree) :
      Phrase .and phrase tree
  | and {phrase next : List TokenKind} {left right : Tree} (hleft : Phrase .and phrase left)
      (hright : Phrase .atom next right) :
      Phrase .and (phrase ++ .and :: next) (.and left right)
  | ofAnd {phrase : List TokenKind} {tree : Tree} (h : Phrase .and phrase tree) :
      Phrase .or phrase tree
  | or {phrase next : List TokenKind} {left right : Tree} (hleft : Phrase .or phrase left)
      (hright : Phrase .and next right) :
      Phrase .or (phrase ++ .or :: next) (.or left right)

/-- The least precedence of an operator that a phrase of a level may end before. -/
def Level.strength : Level → Nat
  | atom => 3
  | and => 2
  | or => 1

theorem Level.strength_le_atom (level : Level) : level.strength ≤ Level.atom.strength := by
  cases level <;> decide

namespace Phrase

/-- A phrase of a level is also one of every level that binds less tightly. -/
theorem loosen {level lower : Level} {phrase : List TokenKind} {tree : Tree}
    (h : Phrase level phrase tree) (hle : lower.strength ≤ level.strength) :
    Phrase lower phrase tree := by
  cases level with
  | atom =>
      cases lower with
      | atom => exact h
      | and => exact ofAtom h
      | or => exact ofAnd (ofAtom h)
  | and =>
      cases lower with
      | atom => exact absurd hle (by decide)
      | and => exact h
      | or => exact ofAnd h
  | or =>
      cases lower with
      | atom => exact absurd hle (by decide)
      | and => exact absurd hle (by decide)
      | or => exact h

/-- The values of a phrase stand in its tree from left to right. -/
theorem leaves_eq {level : Level} {phrase : List TokenKind} {tree : Tree}
    (h : Phrase level phrase tree) : tree.leaves = phrase.filterMap TokenKind.value? := by
  induction h with
  | value text => rfl
  | group _ ih => simpa [List.filterMap_cons, TokenKind.value?] using ih
  | ofAtom _ ih => exact ih
  | and _ _ ihleft ihright =>
      simp [Tree.leaves, List.filterMap_cons, TokenKind.value?, ihleft, ihright]
  | ofAnd _ ih => exact ih
  | or _ _ ihleft ihright =>
      simp [Tree.leaves, List.filterMap_cons, TokenKind.value?, ihleft, ihright]

end Phrase

namespace Machine

/-- The operator on top, if any, binds less tightly than a precedence. -/
def Settled (precedence : Nat) (operators : List Token) : Prop :=
  ∀ operator ∈ operators.head?, operator.kind.precedence?.any (precedence ≤ ·) = false

theorem precedence_lt_three (kind : TokenKind) :
    kind.precedence?.any (3 ≤ ·) = false := by
  cases kind <;> rfl

theorem settled_three (operators : List Token) : Settled 3 operators :=
  fun operator _ => precedence_lt_three operator.kind

theorem Settled.mono {low high : Nat} (hle : low ≤ high) {operators : List Token}
    (h : Settled low operators) : Settled high operators := by
  intro operator hoperator
  have hlow := h operator hoperator
  cases hkind : operator.kind.precedence? with
  | none => rfl
  | some n =>
      simp only [hkind, Option.any_some, decide_eq_false_iff_not] at hlow ⊢
      omega

theorem reduceTighter_of_settled {precedence : Nat} {operators : List Token}
    (h : Settled precedence operators) (output : List Tree) :
    reduceTighter precedence operators output = .ok (operators, output) := by
  cases operators with
  | nil => rfl
  | cons operator operators =>
      have hoperator := h operator rfl
      simp [reduceTighter, hoperator]

theorem reduceTighter_cons {precedence : Nat} {operator : Token}
    (h : operator.kind.precedence?.any (precedence ≤ ·) = true) (operators : List Token)
    (output : List Tree) :
    reduceTighter precedence (operator :: operators) output =
      (reduce operator output).bind (reduceTighter precedence operators) := by
  simp [reduceTighter, h, bind]

/-- Reducing by the tighter operators first makes no difference. -/
theorem reduceTighter_bind {low high : Nat} (hle : low ≤ high) (operators : List Token)
    (output : List Tree) :
    reduceTighter low operators output =
      (reduceTighter high operators output).bind fun rest =>
        reduceTighter low rest.1 rest.2 := by
  induction operators generalizing output with
  | nil => rfl
  | cons operator operators ih =>
      cases hhigh : operator.kind.precedence?.any (high ≤ ·) with
      | false => simp [reduceTighter, hhigh, Except.bind]
      | true =>
          have hlow : operator.kind.precedence?.any (low ≤ ·) = true := by
            cases hkind : operator.kind.precedence? with
            | none => simp [hkind] at hhigh
            | some n =>
                simp only [hkind, Option.any_some, decide_eq_true_eq] at hhigh ⊢
                omega
          rw [reduceTighter_cons hlow, reduceTighter_cons hhigh]
          cases reduce operator output with
          | error e => rfl
          | ok output => exact ih output

/-- Closing a group first reduces by all operators of the group. -/
theorem closeGroup_bind (closing : Token) (operators : List Token) (output : List Tree) :
    closeGroup closing operators output =
      (reduceTighter 1 operators output).bind fun rest =>
        closeGroup closing rest.1 rest.2 := by
  induction operators generalizing output with
  | nil => rfl
  | cons operator operators ih =>
      cases hone : operator.kind.precedence?.any (1 ≤ ·) with
      | false => simp [reduceTighter, hone, Except.bind]
      | true =>
          have hkind : operator.kind ≠ .leftParen := by
            intro heq
            simp [heq, TokenKind.precedence?] at hone
          rw [reduceTighter_cons hone, closeGroup, if_neg hkind]
          cases reduce operator output with
          | error e => rfl
          | ok output => exact ih output

/-- The end of the tokens first reduces by all operators up to a parenthesis. -/
theorem reduceAll_bind (operators : List Token) (output : List Tree) :
    reduceAll operators output =
      (reduceTighter 1 operators output).bind fun rest => reduceAll rest.1 rest.2 := by
  induction operators generalizing output with
  | nil => rfl
  | cons operator operators ih =>
      cases hone : operator.kind.precedence?.any (1 ≤ ·) with
      | false => simp [reduceTighter, hone, Except.bind]
      | true =>
          have hkind : operator.kind ≠ .leftParen := by
            intro heq
            simp [heq, TokenKind.precedence?] at hone
          rw [reduceTighter_cons hone, reduceAll, if_neg hkind]
          cases reduce operator output with
          | error e => rfl
          | ok output => exact ih output

theorem run_append (machine : Machine) (first second : List Token) :
    machine.run (first ++ second) = (machine.run first).bind (·.run second) := by
  rw [run, List.foldlM_append]
  rfl

theorem run_cons (machine : Machine) (token : Token) (tokens : List Token) :
    machine.run (token :: tokens) = (machine.step token).bind (·.run tokens) :=
  rfl

/-- A closing parenthesis drops its partner once the group is one tree. -/
theorem step_rightParen {closing : Token} (hclosing : closing.kind = .rightParen)
    (operators : List Token) (output : List Tree) :
    step ⟨output, operators, false⟩ closing =
      (closeGroup closing operators output).bind fun rest => .ok ⟨rest.2, rest.1, false⟩ := by
  simp [step, hclosing, bind, pure, Except.pure]

/-- An operator waits above all that binds less tightly. -/
theorem step_operator {token : Token} {precedence : Nat}
    (htoken : token.kind.precedence? = some precedence) (operators : List Token)
    (output : List Tree) :
    step ⟨output, operators, false⟩ token =
      (reduceTighter precedence operators output).bind fun rest =>
        .ok ⟨rest.2, token :: rest.1, true⟩ := by
  cases hkind : token.kind with
  | leftParen => simp [hkind, TokenKind.precedence?] at htoken
  | rightParen => simp [hkind, TokenKind.precedence?] at htoken
  | value text => simp [hkind, TokenKind.precedence?] at htoken
  | and =>
      rw [hkind] at htoken
      simp [step, hkind, htoken, bind, pure, Except.pure]
  | or =>
      rw [hkind] at htoken
      simp [step, hkind, htoken, bind, pure, Except.pure]

/-- What a machine holds after a phrase: reducing by what binds no less tightly than the
phrase leaves its tree on the stacks from before it. -/
def Holds (level : Level) (operators : List Token) (output : List Tree) (tree : Tree)
    (machine : Machine) : Prop :=
  machine.expectsOperand = false ∧
    reduceTighter level.strength machine.operators machine.output =
      .ok (operators, tree :: output)

theorem Holds.weaken {level lower : Level} (hle : lower.strength ≤ level.strength)
    {operators : List Token} (hsettled : Settled lower.strength operators)
    {output : List Tree} {tree : Tree} {machine : Machine}
    (h : machine.Holds level operators output tree) :
    machine.Holds lower operators output tree := by
  refine ⟨h.1, ?_⟩
  rw [reduceTighter_bind hle, h.2]
  exact reduceTighter_of_settled hsettled (tree :: output)

/-- Tokens are taken one after another where an operand is expected, and then a tree is
held above the stacks from before. -/
def Yields (level : Level) (tokens operators : List Token) (output : List Tree)
    (tree : Tree) : Prop :=
  ∃ next, run ⟨output, operators, true⟩ tokens = .ok next ∧
    next.Holds level operators output tree

theorem Yields.weaken {level lower : Level} (hle : lower.strength ≤ level.strength)
    {tokens operators : List Token} (hsettled : Settled lower.strength operators)
    {output : List Tree} {tree : Tree} (h : Yields level tokens operators output tree) :
    Yields lower tokens operators output tree := by
  obtain ⟨next, hrun, hholds⟩ := h
  exact ⟨next, hrun, hholds.weaken hle hsettled⟩

theorem yields_value {token : Token} {text : String} (htoken : token.kind = .value text)
    (operators : List Token) (output : List Tree) :
    Yields .atom [token] operators output (.leaf text) := by
  refine ⟨⟨.leaf text :: output, operators, false⟩, ?_, rfl,
    reduceTighter_of_settled (settled_three operators) _⟩
  rw [run_cons, step, htoken]
  rfl

theorem yields_group {opening closing : Token} (hopening : opening.kind = .leftParen)
    (hclosing : closing.kind = .rightParen) {body operators : List Token}
    {output : List Tree} {tree : Tree}
    (h : Yields .or body (opening :: operators) output tree) :
    Yields .atom (opening :: (body ++ [closing])) operators output tree := by
  obtain ⟨next, hrun, hexpects, hreduce⟩ := h
  refine ⟨⟨tree :: output, operators, false⟩, ?_, rfl,
    reduceTighter_of_settled (settled_three operators) _⟩
  have hopen : step ⟨output, operators, true⟩ opening =
      .ok ⟨output, opening :: operators, true⟩ := by
    simp [step, hopening]
  have hclose : next.step closing = .ok ⟨tree :: output, operators, false⟩ := by
    obtain ⟨trees, waiting, _⟩ := next
    subst hexpects
    rw [step_rightParen hclosing, closeGroup_bind]
    change reduceTighter 1 waiting trees = _ at hreduce
    simp [hreduce, Except.bind, closeGroup, hopening]
  rw [run_cons, hopen]
  change run _ (body ++ [closing]) = _
  rw [run_append, hrun]
  change next.run [closing] = _
  rw [run_cons, hclose]
  rfl

/-- An operator between two phrases: the right one binds more tightly, so it is held
above the operator, and reducing then takes the operator as well. -/
theorem yields_binary {level tighter : Level} (hlt : level.strength < tighter.strength)
    {token : Token} (htoken : token.kind.precedence? = some level.strength)
    {before after operators : List Token} (hsettled : Settled level.strength operators)
    {output : List Tree} {left right tree : Tree}
    (hreduce : reduce token (right :: left :: output) = .ok (tree :: output))
    (hleft : Yields level before operators output left)
    (hright : Yields tighter after (token :: operators) (left :: output) right) :
    Yields level (before ++ token :: after) operators output tree := by
  obtain ⟨middle, hbefore, hmiddle, hheld⟩ := hleft
  obtain ⟨next, hafter, hexpects, hnext⟩ := hright
  refine ⟨next, ?_, hexpects, ?_⟩
  · have hstep : middle.step token = .ok ⟨left :: output, token :: operators, true⟩ := by
      obtain ⟨trees, waiting, _⟩ := middle
      subst hmiddle
      rw [step_operator htoken]
      simp only [hheld, Except.bind]
    rw [run_append, hbefore]
    change middle.run (token :: after) = _
    rw [run_cons, hstep]
    exact hafter
  · have htop : token.kind.precedence?.any (level.strength ≤ ·) = true := by
      simp [htoken]
    rw [reduceTighter_bind (Nat.le_of_lt hlt), hnext]
    change reduceTighter _ (token :: operators) (right :: left :: output) = _
    rw [reduceTighter_cons htop, hreduce]
    exact reduceTighter_of_settled hsettled (tree :: output)

/-- Every phrase is read where an operand is expected, whatever waits below it. -/
theorem yields_phrase {level : Level} {phrase : List TokenKind} {tree : Tree}
    (h : Phrase level phrase tree) {tokens : List Token}
    (htokens : tokens.map Token.kind = phrase) {operators : List Token}
    (hsettled : Settled level.strength operators) (output : List Tree) :
    Yields level tokens operators output tree := by
  -- On the derivation, for all stacks below: inside a group the parenthesis is the operator on
  -- top, and right of an operator that operator is.
  induction h generalizing tokens operators output with
  | value text =>
      obtain ⟨token, rfl, htoken⟩ := List.map_eq_singleton_iff.mp htokens
      exact yields_value htoken operators output
  | group _ ih =>
      obtain ⟨opening, rest, rfl, hopening, hrest⟩ := List.map_eq_cons_iff.mp htokens
      obtain ⟨body, last, rfl, hbody, hlast⟩ := List.map_eq_append_iff.mp hrest
      obtain ⟨closing, rfl, hclosing⟩ := List.map_eq_singleton_iff.mp hlast
      have hsettled : Settled 1 (opening :: operators) := by
        intro operator hoperator
        cases hoperator
        simp [hopening, TokenKind.precedence?]
      exact yields_group hopening hclosing (ih hbody hsettled output)
  | ofAtom _ ih =>
      exact (ih htokens (settled_three operators) output).weaken (by decide) hsettled
  | and _ _ ihleft ihright =>
      obtain ⟨before, rest, rfl, hbefore, hrest⟩ := List.map_eq_append_iff.mp htokens
      obtain ⟨token, after, rfl, htoken, hafter⟩ := List.map_eq_cons_iff.mp hrest
      refine yields_binary (by decide) (by rw [htoken]; rfl) hsettled ?_
        (ihleft hbefore hsettled output)
        (ihright hafter (settled_three (token :: operators)) _)
      simp [reduce, htoken]
  | ofAnd _ ih =>
      have htighter : Settled Level.and.strength operators := hsettled.mono (by decide)
      exact (ih htokens htighter output).weaken (by decide) hsettled
  | or _ _ ihleft ihright =>
      obtain ⟨before, rest, rfl, hbefore, hrest⟩ := List.map_eq_append_iff.mp htokens
      obtain ⟨token, after, rfl, htoken, hafter⟩ := List.map_eq_cons_iff.mp hrest
      have hwaits : Settled Level.and.strength (token :: operators) := by
        intro operator hoperator
        cases hoperator
        simp [htoken, TokenKind.precedence?, Level.strength]
      refine yields_binary (by decide) (by rw [htoken]; rfl) hsettled ?_
        (ihleft hbefore hsettled output) (ihright hafter hwaits _)
      simp [reduce, htoken]

/-- The stacks after tokens that leave an operand expected: the level says which phrase may
come next, so that precedences grow toward the top and only a parenthesis starts again. -/
inductive Awaits : Level → List TokenKind → List Token → List Tree → Prop
  | start : Awaits .or [] [] []
  | group {level : Level} {before : List TokenKind} {operators : List Token}
      {output : List Tree} {token : Token} (h : Awaits level before operators output)
      (htoken : token.kind = .leftParen) :
      Awaits .or (before ++ [.leftParen]) (token :: operators) output
  | or {before phrase : List TokenKind} {operators : List Token} {output : List Tree}
      {left : Tree} {token : Token} (h : Awaits .or before operators output)
      (hleft : Phrase .or phrase left) (htoken : token.kind = .or) :
      Awaits .and (before ++ phrase ++ [.or]) (token :: operators) (left :: output)
  | and {level : Level} {before phrase : List TokenKind} {operators : List Token}
      {output : List Tree} {left : Tree} {token : Token}
      (h : Awaits level before operators output) (hlevel : level ≠ .atom)
      (hleft : Phrase .and phrase left) (htoken : token.kind = .and) :
      Awaits .atom (before ++ phrase ++ [.and]) (token :: operators) (left :: output)

/-- A phrase that binds at least as tightly as a bound stands on top of stacks that await
one like it. -/
inductive Completes (consumed : List TokenKind) (bound : Nat) (operators : List Token) :
    List Tree → Prop
  | intro {level kind : Level} {before phrase : List TokenKind} {output : List Tree}
      {tree : Tree} (h : Awaits level before operators output)
      (hphrase : Phrase kind phrase tree) (hlevel : level.strength ≤ kind.strength)
      (hbound : bound ≤ kind.strength) (hconsumed : consumed = before ++ phrase) :
      Completes consumed bound operators (tree :: output)

theorem Completes.mono {consumed : List TokenKind} {low high : Nat} (hle : low ≤ high)
    {operators : List Token} {output : List Tree}
    (h : Completes consumed high operators output) :
    Completes consumed low operators output := by
  cases h with
  | intro h hphrase hlevel hbound hconsumed =>
      exact .intro h hphrase hlevel (Nat.le_trans hle hbound) hconsumed

/-- Reducing by an operator makes one phrase of those at its sides. -/
theorem reduce_completes {precedence bound : Nat} {consumed : List TokenKind}
    {operator : Token} {operators : List Token} {output result : List Tree}
    (htop : operator.kind.precedence?.any (precedence ≤ ·) = true)
    (h : Completes consumed bound (operator :: operators) output)
    (hreduce : reduce operator output = .ok result) :
    Completes consumed precedence operators result := by
  cases h with
  | intro hawaits hphrase hlevel _ hconsumed =>
  -- The operator on top is the last that the awaiting stacks were built with.
  cases hawaits with
  | group _ hkind => simp [hkind, TokenKind.precedence?] at htop
  | or hbelow hleft hkind =>
      simp only [hkind, TokenKind.precedence?, Option.any_some, decide_eq_true_eq] at htop
      simp only [reduce, hkind, Except.ok.injEq] at hreduce
      subst hreduce
      refine .intro hbelow (.or hleft (hphrase.loosen hlevel)) (by decide)
        htop ?_
      simp [hconsumed]
  | @and level _ _ _ _ _ _ hbelow hatom hleft hkind =>
      simp only [hkind, TokenKind.precedence?, Option.any_some, decide_eq_true_eq] at htop
      simp only [reduce, hkind, Except.ok.injEq] at hreduce
      subst hreduce
      have hlow : level.strength ≤ Level.and.strength := by
        cases level with
        | atom => exact absurd rfl hatom
        | and => decide
        | or => decide
      refine .intro hbelow (.and hleft (hphrase.loosen hlevel)) hlow htop ?_
      simp [hconsumed]

/-- Reducing goes on while the operator on top is tight enough. -/
theorem reduceTighter_completes {precedence : Nat} {consumed : List TokenKind}
    {operators rest : List Token} {output result : List Tree}
    (h : Completes consumed precedence operators output)
    (hreduce : reduceTighter precedence operators output = .ok (rest, result)) :
    Settled precedence rest ∧ Completes consumed precedence rest result := by
  induction operators generalizing output with
  | nil =>
      cases hreduce
      exact ⟨fun operator hoperator => by simp at hoperator, h⟩
  | cons operator operators ih =>
      cases htop : operator.kind.precedence?.any (precedence ≤ ·) with
      | false =>
          have hsettled : Settled precedence (operator :: operators) := by
            intro other hother
            cases hother
            exact htop
          rw [reduceTighter_of_settled hsettled] at hreduce
          cases hreduce
          exact ⟨hsettled, h⟩
      | true =>
          rw [reduceTighter_cons htop] at hreduce
          cases hone : reduce operator output with
          | error e => simp [hone, Except.bind] at hreduce
          | ok reduced =>
              rw [hone] at hreduce
              exact ih (reduce_completes htop h hone) hreduce

/-- The tokens taken so far, as the stacks have them. -/
inductive Reads (consumed : List TokenKind) : Machine → Prop
  | awaiting {level : Level} {operators : List Token} {output : List Tree}
      (h : Awaits level consumed operators output) :
      Reads consumed ⟨output, operators, true⟩
  | completed {operators : List Token} {output : List Tree}
      (h : Completes consumed 3 operators output) :
      Reads consumed ⟨output, operators, false⟩

/-- What is awaited binds no more tightly than the operators that are left to reduce. -/
theorem Awaits.strength_le {level : Level} {before : List TokenKind} {operators : List Token}
    {output : List Tree} (h : Awaits level before operators output) {precedence : Nat}
    (hpos : 1 ≤ precedence) (hsettled : Settled precedence operators) :
    level.strength ≤ precedence := by
  cases h with
  | start => exact hpos
  | group _ _ => exact hpos
  | or _ _ hkind =>
      have hlt := hsettled _ rfl
      simp only [hkind, TokenKind.precedence?, Option.any_some,
        decide_eq_false_iff_not] at hlt
      simp only [Level.strength]
      omega
  | and _ _ _ hkind =>
      have hlt := hsettled _ rfl
      simp only [hkind, TokenKind.precedence?, Option.any_some,
        decide_eq_false_iff_not] at hlt
      simp only [Level.strength]
      omega

/-- An operator that follows a phrase awaits one that binds more tightly. -/
theorem Completes.push {consumed : List TokenKind} {operators : List Token}
    {output : List Tree} {token : Token} {precedence : Nat}
    (htoken : token.kind.precedence? = some precedence)
    (hsettled : Settled precedence operators)
    (h : Completes consumed precedence operators output) :
    ∃ level, Awaits level (consumed ++ [token.kind]) (token :: operators) output := by
  cases h with
  | @intro level kind _ _ _ _ hawaits hphrase hlevel hbound hconsumed =>
  subst hconsumed
  cases hkind : token.kind with
  | leftParen => simp [hkind, TokenKind.precedence?] at htoken
  | rightParen => simp [hkind, TokenKind.precedence?] at htoken
  | value text => simp [hkind, TokenKind.precedence?] at htoken
  | and =>
      obtain rfl : 2 = precedence := by simpa [hkind, TokenKind.precedence?] using htoken
      have hle := hawaits.strength_le (by decide) hsettled
      refine ⟨.atom, .and hawaits ?_ (hphrase.loosen hbound) hkind⟩
      rintro rfl
      exact absurd hle (by decide)
  | or =>
      obtain rfl : 1 = precedence := by simpa [hkind, TokenKind.precedence?] using htoken
      have hle := hawaits.strength_le (by decide) hsettled
      obtain rfl : level = .or := by
        cases level with
        | atom => exact absurd hle (by decide)
        | and => exact absurd hle (by decide)
        | or => rfl
      exact ⟨.and, .or hawaits (hphrase.loosen hbound) hkind⟩

/-- When no operator is left to reduce, one phrase stands on nothing, or above an opening
parenthesis whose partner would make an operand of it. -/
theorem Completes.of_settled {consumed : List TokenKind} {operators : List Token}
    {output : List Tree} (hsettled : Settled 1 operators)
    (h : Completes consumed 1 operators output) :
    (∃ tree, operators = [] ∧ output = [tree] ∧ Phrase .or consumed tree) ∨
      ∃ opening below, operators = opening :: below ∧ opening.kind = .leftParen ∧
        Completes (consumed ++ [.rightParen]) 3 below output := by
  cases h with
  | intro hawaits hphrase hlevel hbound hconsumed =>
  subst hconsumed
  cases hawaits with
  | start => exact .inl ⟨_, rfl, rfl, hphrase.loosen hbound⟩
  | group hbelow hkind =>
      refine .inr ⟨_, _, rfl, hkind, ?_⟩
      exact .intro hbelow (.group (hphrase.loosen hbound)) (Level.strength_le_atom _)
        (by decide) (by simp)
  | or _ _ hkind =>
      have hnot := hsettled _ rfl
      simp [hkind, TokenKind.precedence?] at hnot
  | and _ _ _ hkind =>
      have hnot := hsettled _ rfl
      simp [hkind, TokenKind.precedence?] at hnot

/-- A closing parenthesis makes an operand of all that follows its partner. -/
theorem closeGroup_completes {consumed : List TokenKind} {closing : Token}
    {operators rest : List Token} {output result : List Tree}
    (h : Completes consumed 3 operators output)
    (hclose : closeGroup closing operators output = .ok (rest, result)) :
    Completes (consumed ++ [.rightParen]) 3 rest result := by
  rw [closeGroup_bind] at hclose
  cases hreduce : reduceTighter 1 operators output with
  | error e => simp [hreduce, Except.bind] at hclose
  | ok reduced =>
      obtain ⟨waiting, trees⟩ := reduced
      simp only [hreduce, Except.bind] at hclose
      obtain ⟨hsettled, hcompletes⟩ := reduceTighter_completes (h.mono (by decide)) hreduce
      rcases hcompletes.of_settled hsettled with
        ⟨tree, rfl, _⟩ | ⟨opening, below, rfl, hkind, hgroup⟩
      · simp [closeGroup] at hclose
      · simp only [closeGroup, hkind, ↓reduceIte, Except.ok.injEq, Prod.mk.injEq] at hclose
        obtain ⟨rfl, rfl⟩ := hclose
        exact hgroup

theorem step_operator_reads {consumed : List TokenKind} {operators : List Token}
    {output : List Tree} {next : Machine} {token : Token} {precedence : Nat}
    (htoken : token.kind.precedence? = some precedence) (hle : precedence ≤ 3)
    (h : Completes consumed 3 operators output)
    (hstep : step ⟨output, operators, false⟩ token = .ok next) :
    next.Reads (consumed ++ [token.kind]) := by
  rw [step_operator htoken] at hstep
  cases hreduce : reduceTighter precedence operators output with
  | error e => simp [hreduce, Except.bind] at hstep
  | ok rest =>
      simp only [hreduce, Except.bind, Except.ok.injEq] at hstep
      subst hstep
      obtain ⟨hsettled, hcompletes⟩ := reduceTighter_completes (h.mono hle) hreduce
      obtain ⟨level, hawaits⟩ := hcompletes.push htoken hsettled
      exact .awaiting hawaits

/-- One token is read on. -/
theorem step_reads {consumed : List TokenKind} {machine next : Machine} {token : Token}
    (h : machine.Reads consumed) (hstep : machine.step token = .ok next) :
    next.Reads (consumed ++ [token.kind]) := by
  cases h with
  | awaiting hawaits =>
      cases hkind : token.kind with
      | value text =>
          simp only [step, hkind, ↓reduceIte, Except.ok.injEq] at hstep
          subst hstep
          exact .completed (.intro hawaits (.value text) (Level.strength_le_atom _)
            (by decide) rfl)
      | leftParen =>
          simp only [step, hkind, ↓reduceIte, Except.ok.injEq] at hstep
          subst hstep
          exact .awaiting (.group hawaits hkind)
      | rightParen => simp [step, hkind] at hstep
      | and => simp [step, hkind] at hstep
      | or => simp [step, hkind] at hstep
  | @completed operators output hcompletes =>
      cases hkind : token.kind with
      | value text => simp [step, hkind] at hstep
      | leftParen => simp [step, hkind] at hstep
      | rightParen =>
          rw [step_rightParen hkind] at hstep
          cases hclose : closeGroup token operators output with
          | error e => simp [hclose, Except.bind] at hstep
          | ok rest =>
              simp only [hclose, Except.bind, Except.ok.injEq] at hstep
              subst hstep
              exact .completed (closeGroup_completes hcompletes hclose)
      | and =>
          rw [← hkind]
          exact step_operator_reads (by rw [hkind]; rfl) (by decide) hcompletes hstep
      | or =>
          rw [← hkind]
          exact step_operator_reads (by rw [hkind]; rfl) (by decide) hcompletes hstep

/-- All tokens are read on. -/
theorem run_reads {consumed : List TokenKind} {machine next : Machine} {tokens : List Token}
    (h : machine.Reads consumed) (hrun : machine.run tokens = .ok next) :
    next.Reads (consumed ++ tokens.map Token.kind) := by
  induction tokens generalizing consumed machine with
  | nil =>
      cases hrun
      simpa using h
  | cons token tokens ih =>
      rw [run_cons] at hrun
      cases hstep : machine.step token with
      | error e => simp [hstep, Except.bind] at hrun
      | ok middle =>
          rw [hstep] at hrun
          simpa using ih (step_reads h hstep) hrun

theorem reads_start : start.Reads [] :=
  .awaiting .start

/-- Stacks that end in one tree hold a phrase of all that was read. -/
theorem finish_reads {consumed : List TokenKind} {machine : Machine} {tree : Tree}
    (h : machine.Reads consumed) (hfinish : machine.finish = .ok tree) :
    Phrase .or consumed tree := by
  cases h with
  | awaiting _ => simp [finish] at hfinish
  | @completed operators output hcompletes =>
      simp only [finish, Bool.false_eq_true, ↓reduceIte] at hfinish
      rw [reduceAll_bind] at hfinish
      cases hreduce : reduceTighter 1 operators output with
      | error e => simp [hreduce, bind, Except.bind] at hfinish
      | ok rest =>
          obtain ⟨waiting, trees⟩ := rest
          simp only [hreduce, bind, Except.bind] at hfinish
          obtain ⟨hsettled, hdone⟩ :=
            reduceTighter_completes (hcompletes.mono (by decide)) hreduce
          rcases hdone.of_settled hsettled with
            ⟨root, rfl, rfl, hphrase⟩ | ⟨opening, below, rfl, hkind, _⟩
          · simp only [reduceAll, Except.ok.injEq] at hfinish
            exact hfinish ▸ hphrase
          · simp [reduceAll, hkind] at hfinish

/-- A tree held above empty stacks is the one that the tokens end in. -/
theorem Holds.finish_eq {tree : Tree} {machine : Machine} (h : machine.Holds .or [] [] tree) :
    machine.finish = .ok tree := by
  obtain ⟨hexpects, hreduce⟩ := h
  change reduceTighter 1 _ _ = _ at hreduce
  have hall : reduceAll machine.operators machine.output = .ok [tree] := by
    rw [reduceAll_bind, hreduce]
    rfl
  simp [finish, hexpects, hall, bind, Except.bind]

end Machine

/-- Parsing accepts exactly the phrases of the grammar, each with its own tree, and keeps
their values in order. -/
theorem Tree.ofTokens_eq_ok_iff_phrase (tokens : List Token) (tree : Tree) :
    (Tree.ofTokens tokens = .ok tree ↔ Phrase .or (tokens.map Token.kind) tree) ∧
      (Tree.ofTokens tokens = .ok tree →
        tree.leaves = tokens.filterMap fun token => token.kind.value?) := by
  have hsound (hparse : Tree.ofTokens tokens = .ok tree) :
      Phrase .or (tokens.map Token.kind) tree := by
    cases hrun : Machine.start.run tokens with
    | error e => simp [Tree.ofTokens, hrun, bind, Except.bind] at hparse
    | ok machine =>
        have hfinish : machine.finish = .ok tree := by
          simpa [Tree.ofTokens, hrun, bind, Except.bind] using hparse
        exact Machine.finish_reads (Machine.run_reads Machine.reads_start hrun) hfinish
  refine ⟨⟨hsound, fun hphrase => ?_⟩, fun hparse => ?_⟩
  · have hsettled : Machine.Settled Level.or.strength [] := fun operator hoperator => by
      simp at hoperator
    obtain ⟨machine, hrun, hholds⟩ := Machine.yields_phrase hphrase rfl hsettled []
    have hstart : Machine.start.run tokens = .ok machine := hrun
    simp [Tree.ofTokens, hstart, bind, Except.bind, hholds.finish_eq]
  · rw [(hsound hparse).leaves_eq, List.filterMap_map]
    rfl

end FilterSql

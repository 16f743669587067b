/-
Filter expressions as trees, and the parser that builds them.

The parser keeps two stacks, trees that are finished and operators that wait for their
right side.  An operator is put off while one that binds less tightly comes, and a closing
parenthesis finishes all that was put off since its partner.
-/
import FilterSql.Filter.Token

namespace FilterSql

/-- A filter expression over plain values. -/
inductive Tree
  | leaf (value : String)
  | and (left right : Tree)
  | or (left right : Tree)
deriving DecidableEq, Repr

namespace Tree

/-- The expression with parentheses around every operator. -/
def toText : Tree → String
  | leaf value => value
  | and left right => "(" ++ left.toText ++ " && " ++ right.toText ++ ")"
  | or left right => "(" ++ left.toText ++ " || " ++ right.toText ++ ")"

/-- The values from left to right. -/
def leaves : Tree → List String
  | leaf value => [value]
  | and left right => left.leaves ++ right.leaves
  | or left right => left.leaves ++ right.leaves

/-- Some value of the tree passes a test. -/
def anyLeaf (test : String → Bool) (tree : Tree) : Bool :=
  tree.leaves.any test

/-- Values and operators, each operator after its operands. -/
def postfixWords : Tree → List String
  | leaf value => [value]
  | and left right => left.postfixWords ++ right.postfixWords ++ ["&&"]
  | or left right => left.postfixWords ++ right.postfixWords ++ ["||"]

end Tree

/-- The state between two tokens; the top of each stack comes first. -/
structure Machine where
  output : List Tree
  operators : List Token
  /-- A value or an opening parenthesis has to come next. -/
  expectsOperand : Bool
deriving DecidableEq, Repr

namespace Machine

/-- The state before the first token. -/
def start : Machine := ⟨[], [], true⟩

/-- Put the two topmost trees under an operator. -/
def reduce (operator : Token) : List Tree → Except ParseError (List Tree)
  | right :: left :: output =>
      match operator.kind with
      | .and => .ok (.and left right :: output)
      | .or => .ok (.or left right :: output)
      | _ => .error operator.unexpected
  | _ => .error operator.lacksOperand

/-- Reduce by the operators on top that bind at least as tightly. -/
def reduceTighter (precedence : Nat) :
    List Token → List Tree → Except ParseError (List Token × List Tree)
  | [], output => .ok ([], output)
  | operator :: operators, output =>
      if operator.kind.precedence?.any (precedence ≤ ·) then do
        let output ← reduce operator output
        reduceTighter precedence operators output
      else .ok (operator :: operators, output)

/-- Reduce by the operators above the partner of a closing parenthesis, and drop it. -/
def closeGroup (closing : Token) :
    List Token → List Tree → Except ParseError (List Token × List Tree)
  | [], _ => .error closing.unbalanced
  | operator :: operators, output =>
      if operator.kind = .leftParen then .ok (operators, output)
      else do
        let output ← reduce operator output
        closeGroup closing operators output

/-- The error of a closing parenthesis where an operand belongs. -/
def danglingClose (closing : Token) : List Token → ParseError
  | [] => closing.unbalanced
  | operator :: _ =>
      if operator.kind = .leftParen then closing.unexpected else operator.lacksOperand

/-- Take one token. -/
def step (machine : Machine) (token : Token) : Except ParseError Machine :=
  match token.kind with
  | .value text =>
      if machine.expectsOperand then
        .ok ⟨.leaf text :: machine.output, machine.operators, false⟩
      else .error token.unexpected
  | .leftParen =>
      if machine.expectsOperand then
        .ok ⟨machine.output, token :: machine.operators, true⟩
      else .error token.unexpected
  | .rightParen =>
      if machine.expectsOperand then .error (danglingClose token machine.operators)
      else do
        let (operators, output) ← closeGroup token machine.operators machine.output
        return ⟨output, operators, false⟩
  | kind =>
      if machine.expectsOperand then .error token.lacksOperand
      else do
        let (operators, output) ←
          reduceTighter (kind.precedence?.getD 0) machine.operators machine.output
        return ⟨output, token :: operators, true⟩

/-- The error of an end where an operand belongs. -/
def earlyEnd : List Token → ParseError
  | [] => .empty
  | operator :: _ =>
      if operator.kind = .leftParen then operator.unbalanced else operator.lacksOperand

/-- Reduce by all operators; a parenthesis among them has no partner. -/
def reduceAll : List Token → List Tree → Except ParseError (List Tree)
  | [], output => .ok output
  | operator :: operators, output =>
      if operator.kind = .leftParen then .error operator.unbalanced
      else do
        let output ← reduce operator output
        reduceAll operators output

/-- The tree at the end of the tokens. -/
def finish (machine : Machine) : Except ParseError Tree :=
  if machine.expectsOperand then .error (earlyEnd machine.operators)
  else do
    match ← reduceAll machine.operators machine.output with
    | [root] => .ok root
    | _ => .error .empty

/-- Take tokens one after another. -/
def run (machine : Machine) (tokens : List Token) : Except ParseError Machine :=
  tokens.foldlM step machine

end Machine

/-- The tree of a list of tokens. -/
def Tree.ofTokens (tokens : List Token) : Except ParseError Tree := do
  let machine ← Machine.start.run tokens
  machine.finish

/-- The tree of a text. -/
def Tree.ofText (raw : String) : Except ParseError Tree := do
  let tokens ← tokens raw
  Tree.ofTokens tokens

end FilterSql

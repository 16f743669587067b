/-
Tokens of a filter expression.

A filter value may combine plain values by `&&`, `||` and parentheses.  There is no
escaping: a plain value is a run without blanks and without the characters of the
operators.  Positions are counted in bytes.
-/
import FilterSql.Text.Basic

namespace FilterSql

/-- How many bytes a text takes. -/
def byteLength : List Char → Nat
  | [] => 0
  | c :: cs => c.utf8Size + byteLength cs

/-- The kinds of tokens. -/
inductive TokenKind
  | and
  | or
  | leftParen
  | rightParen
  | value (text : String)
deriving DecidableEq, Repr

/-- A token and the byte it starts at. -/
structure Token where
  kind : TokenKind
  position : Nat
deriving DecidableEq, Repr

/-- What can be wrong with a filter expression. -/
inductive ParseError
  | unbalancedParenthesis (position : Nat)
  | missingOperand (operator : String) (position : Nat)
  | unexpectedToken (token : String) (position : Nat)
  | empty
deriving DecidableEq, Repr

/-- The text of an error. -/
def ParseError.message : ParseError → String
  | unbalancedParenthesis position => s!"Unbalanced parenthesis at position {position}"
  | missingOperand operator position =>
      s!"Operator '{operator}' at position {position} is missing an operand"
  | unexpectedToken token position => s!"Unexpected token '{token}' at position {position}"
  | empty => "Empty filter expression"

namespace TokenKind

/-- The text of a token. -/
def text : TokenKind → String
  | and => "&&"
  | or => "||"
  | leftParen => "("
  | rightParen => ")"
  | value text => text

/-- How tightly an operator binds: `&&` more than `||`. -/
def precedence? : TokenKind → Option Nat
  | or => some 1
  | and => some 2
  | _ => none

end TokenKind

namespace Token

/-- The text of a token. -/
def lexeme (token : Token) : String :=
  token.kind.text

/-- The byte after the last one of a token. -/
def stop (token : Token) : Nat :=
  token.position + byteLength token.lexeme.toList

/-- The error of a token that stands where none of its kind can. -/
def unexpected (token : Token) : ParseError :=
  .unexpectedToken token.lexeme token.position

/-- The error of an operator without one of its operands. -/
def lacksOperand (token : Token) : ParseError :=
  .missingOperand token.lexeme token.position

/-- The error of a parenthesis without its partner. -/
def unbalanced (token : Token) : ParseError :=
  .unbalancedParenthesis token.position

end Token

/-- The characters of a plain value: no blanks, bars, ampersands or parentheses. -/
def isValueChar (c : Char) : Bool :=
  !(Text.isAsciiBlank c || c == '|' || c == '&' || c == '(' || c == ')')

/-- The tokens of a text that starts at a byte.  A bar or an ampersand without a second
one is refused. -/
def tokensFrom (position : Nat) : List Char → Except ParseError (List Token)
  | [] => .ok []
  | '|' :: '|' :: cs => (tokensFrom (position + 2) cs).map (⟨.or, position⟩ :: ·)
  | '&' :: '&' :: cs => (tokensFrom (position + 2) cs).map (⟨.and, position⟩ :: ·)
  | '(' :: cs => (tokensFrom (position + 1) cs).map (⟨.leftParen, position⟩ :: ·)
  | ')' :: cs => (tokensFrom (position + 1) cs).map (⟨.rightParen, position⟩ :: ·)
  | c :: cs =>
      if Text.isAsciiBlank c then tokensFrom (position + 1) cs
      else if c = '|' ∨ c = '&' then .error (.unexpectedToken (String.singleton c) position)
      else
        let run := c :: cs.takeWhile isValueChar
        have := Text.length_dropWhile_le isValueChar cs
        (tokensFrom (position + byteLength run) (cs.dropWhile isValueChar)).map
          (⟨.value (String.ofList run), position⟩ :: ·)
termination_by cs => cs.length

/-- The tokens of a text. -/
def tokens (raw : String) : Except ParseError (List Token) :=
  tokensFrom 0 raw.toList

/-- Two equal characters stand side by side. -/
def holdsPair (c : Char) : List Char → Bool
  | a :: b :: cs => (a == c && b == c) || holdsPair c (b :: cs)
  | _ => false

/-- Whether a filter value has to be read as an expression. -/
def isComposite (raw : String) : Bool :=
  let cs := raw.toList
  holdsPair '&' cs || holdsPair '|' cs || cs.contains '(' || cs.contains ')'

end FilterSql

/-
Text in lower case.

Each letter has a mapping of its own; two need more.  A capital I with a dot becomes
two characters, and a capital sigma is written as the final one at the end of a word.
-/
import FilterSql.Text.LetterCase

namespace FilterSql.Text

/-- Whether a cased letter comes next once ignorable characters are passed over. -/
def meetsCased (cs : List Char) : Bool :=
  match cs.dropWhile LetterCase.isIgnorable with
  | [] => false
  | c :: _ => LetterCase.isCased c

/-- The small sigma for a capital one, given the text before it (nearest first) and
after it: final when it ends a word, medial otherwise. -/
def smallSigma (before after : List Char) : Char :=
  if meetsCased before && !meetsCased after then 'ς' else 'σ'

/-- The lower case of a character whose neighbours do not matter. -/
def lowerChar (c : Char) : List Char :=
  if c = 'İ' then ['i', '\u0307'] else [Char.ofNat (LetterCase.lowerPoint c.toNat)]

/-- Lower case of a text that follows `before` (nearest first). -/
def lowerAfter (before : List Char) : List Char → List Char
  | [] => []
  | c :: cs =>
      if c = 'Σ' then smallSigma before cs :: lowerAfter (c :: before) cs
      else lowerChar c ++ lowerAfter (c :: before) cs

/-- Lower case of a list of characters. -/
def lower (cs : List Char) : List Char :=
  lowerAfter [] cs

/-- The text in lower case. -/
def lowered (s : String) : String :=
  String.ofList (lower s.toList)

end FilterSql.Text

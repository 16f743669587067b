/-
Trees written and read back.

A tree is written with parentheses around every operator, so its text is an operand of the
grammar whatever stands beside it.  Reading it gives the tree back exactly when its leaves
can be values of tokens, as all values are that are read from a text.
-/
import FilterSql.Proofs.Filter.Tokens

namespace FilterSql

/-- A text spells tokens of these kinds wherever it starts. -/
def SpellsKinds (cs : List Char) (kinds : List TokenKind) : Prop :=
  ∀ position, ∃ tokens, Spells position cs tokens ∧ tokens.map Token.kind = kinds

namespace SpellsKinds

variable {cs : List Char} {kinds : List TokenKind}

theorem nil : SpellsKinds [] [] :=
  fun _ => ⟨[], .stop (by simp), rfl⟩

theorem blank (h : SpellsKinds cs kinds) : SpellsKinds (' ' :: cs) kinds := by
  intro position
  obtain ⟨tokens, hspells, hkinds⟩ := h (position + ' '.utf8Size)
  exact ⟨tokens, hspells.blank rfl, hkinds⟩

theorem token (h : SpellsKinds cs kinds) (kind : TokenKind)
    (hvalue : ∀ text, kind = .value text → IsValueText text ∧ EndsValue cs) :
    SpellsKinds (kind.text.toList ++ cs) (kind :: kinds) := by
  intro position
  obtain ⟨tokens, hspells, rfl⟩ := h (Token.stop ⟨kind, position⟩)
  exact ⟨⟨kind, position⟩ :: tokens, hspells.lexeme hvalue, rfl⟩

end SpellsKinds

/-- A text spells these kinds before all that no value can run on into. -/
def IsOperandText (text : List Char) (kinds : List TokenKind) : Prop :=
  ∀ rest after, EndsValue rest → SpellsKinds rest after →
    SpellsKinds (text ++ rest) (kinds ++ after)

namespace IsOperandText

theorem value {text : String} (htext : IsValueText text) :
    IsOperandText text.toList [.value text] := by
  intro rest after hends hrest
  refine hrest.token (.value text) ?_
  rintro own heq
  cases heq
  exact ⟨htext, hends⟩

/-- Two operands with an operator between, in parentheses. -/
theorem group {op : TokenKind} (hop : op = .and ∨ op = .or) {left right : List Char}
    {leftKinds rightKinds : List TokenKind} (hleft : IsOperandText left leftKinds)
    (hright : IsOperandText right rightKinds) :
    IsOperandText ('(' :: (left ++ ' ' :: (op.text.toList ++ ' ' :: (right ++ [')']))))
      (.leftParen :: (leftKinds ++ op :: rightKinds) ++ [.rightParen]) := by
  intro rest after _ hrest
  have hclose : SpellsKinds (')' :: rest) (.rightParen :: after) :=
    hrest.token .rightParen (by simp)
  have hafterOp := (hright _ _ (by simp [EndsValue, isValueChar]) hclose).blank
  have hbeforeOp := (hafterOp.token op (by rcases hop with rfl | rfl <;> simp)).blank
  have hinner := hleft _ _ (by simp [EndsValue, isValueChar, Text.isAsciiBlank]) hbeforeOp
  have hopen : SpellsKinds ('(' :: _) _ := hinner.token .leftParen (by simp)
  simpa using hopen

end IsOperandText

namespace Tree

/-- The kinds of the tokens of a tree's text. -/
def kinds : Tree → List TokenKind
  | leaf value => [.value value]
  | and left right => .leftParen :: (left.kinds ++ .and :: right.kinds) ++ [.rightParen]
  | or left right => .leftParen :: (left.kinds ++ .or :: right.kinds) ++ [.rightParen]

theorem phrase_kinds (tree : Tree) : Phrase .atom tree.kinds tree := by
  induction tree with
  | leaf value => exact .value value
  | and left right ihleft ihright => exact .group (.ofAnd (.and (.ofAtom ihleft) ihright))
  | or left right ihleft ihright => exact .group (.or (.ofAnd (.ofAtom ihleft)) (.ofAtom ihright))

theorem isOperandText_toText {tree : Tree} (hleaves : ∀ leaf ∈ tree.leaves, IsValueText leaf) :
    IsOperandText tree.toText.toList tree.kinds := by
  induction tree with
  | leaf value => exact .value (hleaves value List.mem_cons_self)
  | and left right ihleft ihright =>
      have hleft := ihleft fun leaf hleaf => hleaves leaf (List.mem_append_left _ hleaf)
      have hright := ihright fun leaf hleaf => hleaves leaf (List.mem_append_right _ hleaf)
      simpa [toText, kinds, TokenKind.text] using hleft.group (.inl rfl) hright
  | or left right ihleft ihright =>
      have hleft := ihleft fun leaf hleaf => hleaves leaf (List.mem_append_left _ hleaf)
      have hright := ihright fun leaf hleaf => hleaves leaf (List.mem_append_right _ hleaf)
      simpa [toText, kinds, TokenKind.text] using hleft.group (.inr rfl) hright

/-- A tree's text is read as the tree exactly when its leaves can be values, which all values of
tokens can. -/
theorem ofText_toText_eq_ok_iff (tree : Tree) :
    (ofText tree.toText = .ok tree ↔ ∀ leaf ∈ tree.leaves, IsValueText leaf) ∧
      ∀ raw read, tokens raw = .ok read → ∀ token ∈ read, ∀ text, token.kind = .value text →
        IsValueText text := by
  refine ⟨⟨fun htree leaf hleaf => isValueText_of_ofText htree hleaf, fun hleaves => ?_⟩, ?_⟩
  · have hspells := isOperandText_toText hleaves [] [] (by simp [EndsValue]) .nil 0
    rw [List.append_nil, List.append_nil] at hspells
    obtain ⟨read, hread, hkinds⟩ := hspells
    refine ofText_eq_ok_iff.mpr ⟨read, hread, ?_⟩
    rw [hkinds]
    exact .ofAnd (.ofAtom tree.phrase_kinds)
  · intro raw read hread token htoken text htext
    refine (tokensFrom_eq_ok_iff.mp hread).isValueText ?_
    exact List.mem_filterMap.mpr ⟨_, List.mem_map_of_mem htoken, by rw [htext]; rfl⟩

end Tree

namespace TreeText

/-- Operators of both kinds inside one another, over operators of filter values and letters of
more than one byte. -/
def nested : Tree :=
  .and (.or (.leaf ">=10") (.leaf "~größe"))
    (.or (.leaf "null") (.and (.leaf "in:1,2") (.leaf "日本")))

theorem ofText_toText_nested :
    (∀ leaf ∈ nested.leaves, IsValueText leaf) ∧ Tree.ofText nested.toText = .ok nested := by
  have hleaves : ∀ leaf ∈ nested.leaves, IsValueText leaf := by decide
  exact ⟨hleaves, (Tree.ofText_toText_eq_ok_iff nested).1.mpr hleaves⟩

end TreeText

end FilterSql

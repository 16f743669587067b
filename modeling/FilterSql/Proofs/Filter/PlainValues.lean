/-
Plain values read as expressions.

A filter value without operators and parentheses is taken as it is.  Where reading it as an
expression succeeds, the expression is the value alone without the blanks about it, and makes
the same predicate.  So the predicate of a value that can be read is the one of its tree, and
where a relation is asked for absent values all of its joins are left joins.
-/
import FilterSql.Proofs.Filter.Meaning

namespace FilterSql

/-- A word that asks for absent values or for present ones, in any case and between blanks. -/
def NullCheck.IsWord (raw : String) : Prop :=
  String.ofList (Text.asciiLower (Text.trim raw.toList)) ∈ ["null", "=null", "!null", "!=null"]

instance (raw : String) : Decidable (NullCheck.IsWord raw) :=
  inferInstanceAs (Decidable (_ ∈ ["null", "=null", "!null", "!=null"]))

theorem NullCheck.isAsked_iff {raw : String} : isAsked raw = true ↔ IsWord raw := by
  simp [isAsked, ofText?, List.lookup_isSome_iff, words, IsWord]

/-- A join that is there already is not joined again. -/
theorem Join.insertInto_self (join : Join) : join.insertInto [join] = [join] := by
  rw [insertInto, if_pos rfl]
  split
  next hleft => rw [outer, ← hleft]
  next => rfl

/-- Two predicates that join nothing but one table join nothing but this table together. -/
theorem Predicate.joins_combine_of_same {op : Expr → Expr → Expr} {left right : Predicate}
    {own : Option Join} (hleft : left.joins = [] ∨ left.joins = own.toList)
    (hright : right.joins = [] ∨ right.joins = own.toList) :
    (combine op left right).joins = [] ∨ (combine op left right).joins = own.toList := by
  rw [combine]
  rcases hright with hright | hright
  · rw [hright]
    exact hleft
  · rw [hright]
    cases own with
    | none => exact hleft
    | some join =>
        right
        rcases hleft with hleft | hleft
        · rw [hleft]
          rfl
        · rw [hleft]
          exact Join.insertInto_self join

/-- A text without operators and parentheses spells values only. -/
theorem Spells.exists_value {raw : String} (hplain : isComposite raw = false) {position : Nat}
    {tokens : List Token} (h : Spells position raw.toList tokens) {token : Token}
    (htoken : token ∈ tokens) : ∃ text, token.kind = .value text := by
  obtain ⟨before, after, hraw⟩ := h.exists_eq_append htoken
  simp only [isComposite, Bool.or_eq_false_iff, List.contains_eq_mem, decide_eq_false_iff_not]
    at hplain
  obtain ⟨⟨⟨hand, hor⟩, hopen⟩, hclose⟩ := hplain
  rw [Token.lexeme] at hraw
  cases hkind : token.kind with
  | value text => exact ⟨text, rfl⟩
  | and =>
      rw [hraw, hkind] at hand
      exact absurd (holdsPair_append '&' before after) (Bool.eq_false_iff.mp hand)
  | or =>
      rw [hraw, hkind] at hor
      exact absurd (holdsPair_append '|' before after) (Bool.eq_false_iff.mp hor)
  | leftParen =>
      rw [hraw, hkind] at hopen
      exact absurd (List.mem_append_right _ List.mem_cons_self) hopen
  | rightParen =>
      rw [hraw, hkind] at hclose
      exact absurd (List.mem_append_right _ List.mem_cons_self) hclose

/-- A phrase of values is one value. -/
theorem Phrase.exists_eq_leaf {level : Level} {kinds : List TokenKind} {tree : Tree}
    (h : Phrase level kinds tree) (hvalues : ∀ kind ∈ kinds, ∃ text, kind = .value text) :
    ∃ text, kinds = [.value text] ∧ tree = .leaf text := by
  induction h with
  | value text => exact ⟨text, rfl, rfl⟩
  | group =>
      obtain ⟨text, heq⟩ := hvalues .leftParen List.mem_cons_self
      cases heq
  | ofAtom _ ih | ofAnd _ ih => exact ih hvalues
  | and =>
      obtain ⟨text, heq⟩ := hvalues .and (List.mem_append_right _ List.mem_cons_self)
      cases heq
  | or =>
      obtain ⟨text, heq⟩ := hvalues .or (List.mem_append_right _ List.mem_cons_self)
      cases heq

/-- A text that spells one value is this value between blanks. -/
theorem Spells.trimmed_eq {raw : String} {position : Nat} {token : Token} {text : String}
    (h : Spells position raw.toList [token]) (hkind : token.kind = .value text) :
    Text.trimmed raw = Text.trimmed text := by
  generalize hcs : raw.toList = cs at h
  rw [Text.trimmed, Text.trimmed, hcs]
  cases h with
  | token hbefore _ _ h =>
      cases h with
      | stop hafter =>
          have htext : token.lexeme.toList = text.toList := by
            rw [Token.lexeme, hkind, TokenKind.text]
          have htrim := Text.strip_append_append (p := Text.isBlank)
            (fun c hc => Text.isBlank_of_isAsciiBlank (hbefore c hc))
            (fun c hc => Text.isBlank_of_isAsciiBlank (hafter c hc)) text.toList
          rw [htext]
          exact congrArg String.ofList htrim

/-- The tree of a text without operators and parentheses is the text, but for blanks. -/
theorem Tree.exists_eq_leaf_of_ofText {raw : String} (hplain : isComposite raw = false)
    {tree : Tree} (htree : ofText raw = .ok tree) :
    ∃ text, tree = .leaf text ∧ Text.trimmed raw = Text.trimmed text := by
  obtain ⟨tokens, hspells, hphrase⟩ := ofText_eq_ok_iff.mp htree
  have hvalues : ∀ kind ∈ tokens.map Token.kind, ∃ text, kind = .value text := by
    intro kind hkind
    obtain ⟨token, htoken, rfl⟩ := List.mem_map.mp hkind
    exact hspells.exists_value hplain htoken
  obtain ⟨text, hkinds, rfl⟩ := hphrase.exists_eq_leaf hvalues
  obtain ⟨token, rfl, hkind⟩ := List.map_eq_singleton_iff.mp hkinds
  exact ⟨text, rfl, hspells.trimmed_eq hkind⟩

namespace Field

variable {scope : Scope} {field : Field}

theorem valuePredicate_congr {raw other : String}
    (htrimmed : Text.trimmed raw = Text.trimmed other) :
    field.valuePredicate scope raw = field.valuePredicate scope other := by
  rw [← valuePredicate_trimmed, htrimmed, valuePredicate_trimmed]

theorem filterPredicate_of_isComposite {raw : String} (hcomposite : isComposite raw = true)
    {tree : Tree} (htree : Tree.ofText raw = .ok tree) :
    field.filterPredicate scope raw =
      .ok (if field.isRelation && tree.anyLeaf NullCheck.isAsked then
        (field.treePredicate scope tree).outerJoins
      else field.treePredicate scope tree) := by
  rw [filterPredicate, hcomposite, isAsked_of_isComposite hcomposite, htree]
  simp only [bind, Except.bind, Bool.not_true, Bool.or_false, Bool.false_eq_true, if_false]
  split <;> rfl

theorem filterPredicate_of_plain {raw : String} (hplain : isComposite raw = false)
    {text : String} (htrimmed : Text.trimmed raw = Text.trimmed text) :
    field.filterPredicate scope raw = .ok (field.treePredicate scope (.leaf text)) := by
  rw [filterPredicate, hplain, Bool.not_false, Bool.or_true, if_pos rfl,
    valuePredicate_congr htrimmed, treePredicate]

/-- An expression joins nothing, or the one table that the field is searched through. -/
theorem joins_treePredicate (tree : Tree) :
    (field.treePredicate scope tree).joins = [] ∨
      (field.treePredicate scope tree).joins = (field.searchJoin? scope).toList := by
  induction tree with
  | leaf value =>
      rcases (@makes_valuePredicate scope field value).joins with hnone | ⟨-, join, hjoin, hjoins⟩
      · exact .inl hnone
      · right
        rw [treePredicate, hjoins, hjoin, Option.toList_some]
  | and left right ihleft ihright | or left right ihleft ihright =>
      exact Predicate.joins_combine_of_same ihleft ihright

theorem kind_of_mem_joins_treePredicate (tree : Tree) {join : Join}
    (hjoin : join ∈ (field.treePredicate scope tree).joins) : join.kind = scope.relationJoin := by
  rcases @joins_treePredicate scope field tree with hnone | hown
  · rw [hnone] at hjoin
    cases hjoin
  · rw [hown, Option.mem_toList] at hjoin
    exact kind_of_searchJoin? hjoin

/-- Some value of an expression asks a relation for absent values, or for present ones. -/
def AsksForAbsent (field : Field) (tree : Tree) : Prop :=
  field.relation.isSome = true ∧ ∃ text ∈ tree.leaves, NullCheck.IsWord text

theorem asksForAbsent_iff {tree : Tree} :
    field.AsksForAbsent tree ↔ (field.isRelation && tree.anyLeaf NullCheck.isAsked) = true := by
  simp only [AsksForAbsent, Bool.and_eq_true, isRelation, Tree.anyLeaf, List.any_eq_true,
    NullCheck.isAsked_iff]

/-- The predicate of a value that can be read is the one of its tree.  Where a relation is asked
for absent values every join becomes a left join of the same table under the same name and
condition, and otherwise each join is of the kind that the settings say.  So values with one tree
make one predicate. -/
theorem filterPredicate_of_ofText {raw : String} {tree : Tree}
    (htree : Tree.ofText raw = .ok tree) (scope : Scope) (field : Field) :
    (field.AsksForAbsent tree → field.filterPredicate scope raw = .ok
      { condition := (field.treePredicate scope tree).condition
        joins := (field.treePredicate scope tree).joins.map fun join =>
          ⟨.left, join.table, join.asName, join.on⟩ }) ∧
    (¬field.AsksForAbsent tree →
      field.filterPredicate scope raw = .ok (field.treePredicate scope tree)) ∧
    (∀ join ∈ (field.treePredicate scope tree).joins, join.kind = scope.relationJoin) ∧
    ∀ other, Tree.ofText other = .ok tree →
      field.filterPredicate scope other = field.filterPredicate scope raw := by
  have hread : ∀ raw, Tree.ofText raw = .ok tree → field.filterPredicate scope raw =
      .ok (if field.isRelation && tree.anyLeaf NullCheck.isAsked then
        (field.treePredicate scope tree).outerJoins
      else field.treePredicate scope tree) := by
    intro raw htree
    cases hcomposite : isComposite raw with
    | true => exact filterPredicate_of_isComposite hcomposite htree
    | false =>
        obtain ⟨text, rfl, htrimmed⟩ := Tree.exists_eq_leaf_of_ofText hcomposite htree
        rw [filterPredicate_of_plain hcomposite htrimmed]
        split
        next hasked =>
          -- A value that asks for absent values joins nothing.
          have htext : NullCheck.isAsked text = true := by
            simpa [Tree.anyLeaf, Tree.leaves] using (Bool.and_eq_true_iff.mp hasked).2
          rw [treePredicate, outerJoins_valuePredicate htext]
        next => rfl
  refine ⟨fun hasks => ?_, fun hasks => ?_, fun _ => kind_of_mem_joins_treePredicate tree, ?_⟩
  · rw [hread raw htree, if_pos (asksForAbsent_iff.mp hasks)]
    rfl
  · rw [hread raw htree, if_neg (mt asksForAbsent_iff.mpr hasks)]
  · intro other hother
    rw [hread other hother, hread raw htree]

end Field

namespace PlainValues

open RepeatedValues (companyField)

/-- Users, with inner joins. -/
def scope : Scope := ⟨"users", .inner⟩

/-- The companies of users. -/
def companies (kind : JoinKind) : Join :=
  ⟨kind, "companies", "companies_company_id",
    .binary .eq (.column ⟨some "companies_company_id", "id"⟩)
      (.column ⟨some "users", "company_id"⟩)⟩

/-- One question in two spellings, about a relation and about absent values at once: the inner
join of its tree is a left join in its predicate.  A question without absent values keeps it. -/
theorem filterPredicate_of_spellings :
    (Tree.ofText "null||acme" = .ok (.or (.leaf "null") (.leaf "acme")) ∧
      Tree.ofText " ((null) || acme ) " = .ok (.or (.leaf "null") (.leaf "acme")) ∧
      Tree.ofText "(acme)" = .ok (.leaf "acme")) ∧
    (companyField.treePredicate scope (.or (.leaf "null") (.leaf "acme"))).joins =
      [companies .inner] ∧
    (∃ condition, companyField.filterPredicate scope "null||acme" =
      .ok ⟨some condition, [companies .left]⟩) ∧
    companyField.filterPredicate scope " ((null) || acme ) " =
      companyField.filterPredicate scope "null||acme" ∧
    ∃ condition, companyField.filterPredicate scope "(acme)" =
      .ok ⟨some condition, [companies .inner]⟩ := by
  have hplain : Tree.ofText "null||acme" = .ok (.or (.leaf "null") (.leaf "acme")) := by
    decide +kernel
  have hspaced : Tree.ofText " ((null) || acme ) " = .ok (.or (.leaf "null") (.leaf "acme")) := by
    decide +kernel
  have hgroup : Tree.ofText "(acme)" = .ok (.leaf "acme") := by
    decide +kernel
  have hasks : companyField.AsksForAbsent (.or (.leaf "null") (.leaf "acme")) :=
    ⟨rfl, "null", by simp [Tree.leaves], by decide⟩
  have hother : ¬companyField.AsksForAbsent (.leaf "acme") := by
    rw [Field.asksForAbsent_iff]
    decide
  obtain ⟨hleft, -, -, hsame⟩ := Field.filterPredicate_of_ofText hplain scope companyField
  obtain ⟨-, hkept, -, -⟩ := Field.filterPredicate_of_ofText hgroup scope companyField
  exact ⟨⟨hplain, hspaced, hgroup⟩, rfl, ⟨_, hleft hasks⟩, hsame _ hspaced, ⟨_, hkept hother⟩⟩

end PlainValues

end FilterSql

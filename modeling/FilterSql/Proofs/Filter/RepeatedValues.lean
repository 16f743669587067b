/-
Repeated filter keys and expressions under `||`.

A key with several values asks for any of them.  So does the one value that has `||`
between each two of them: it is read as an expression with these values as its leaves, and
its predicate is the one of the repeated key.  Only the joins can differ.  An expression
about a related table that asks for absent values makes left joins of them, a repeated key
joins as the settings say.
-/
import FilterSql.Proofs.Filter.Assembly
import FilterSql.Proofs.Filter.Rows
import FilterSql.Proofs.Filter.Tokens
import FilterSql.Proofs.Filter.ValueCases
import FilterSql.Proofs.Text.Cuts

namespace FilterSql

/-- A value that can stand in an expression: it is not blank, and no character of it separates
values. -/
structure IsPlainValue (raw : String) : Prop where
  notBlank : Text.isBlankText raw = false
  chars : ∀ c ∈ raw.toList, isValueChar c = true

instance (raw : String) : Decidable (IsPlainValue raw) :=
  decidable_of_iff (Text.isBlankText raw = false ∧ raw.toList.all isValueChar = true)
    ⟨fun h => ⟨h.1, List.all_eq_true.mp h.2⟩, fun h => ⟨h.notBlank, List.all_eq_true.mpr h.chars⟩⟩

/-- The values with `||` between each two of them. -/
def alternatives (values : List String) : String :=
  "||".intercalate values

section Text

theorem alternatives_singleton (raw : String) : alternatives [raw] = raw :=
  String.intercalate_singleton

theorem toList_alternatives (first second : String) (rest : List String) :
    (alternatives (first :: second :: rest)).toList =
      first.toList ++ '|' :: '|' :: (alternatives (second :: rest)).toList := by
  rw [alternatives, String.intercalate_cons_cons, String.toList_append, String.toList_append,
    List.append_assoc]
  rfl

theorem isBlankText_alternatives {first : String} (hfirst : Text.isBlankText first = false)
    (rest : List String) : Text.isBlankText (alternatives (first :: rest)) = false := by
  cases rest with
  | nil => rwa [alternatives_singleton]
  | cons second rest =>
      rw [Text.isBlankText, List.all_eq_false] at hfirst ⊢
      obtain ⟨c, hc, hblank⟩ := hfirst
      rw [toList_alternatives]
      exact ⟨c, List.mem_append_left _ hc, hblank⟩

theorem holdsPair_append (c : Char) (before after : List Char) :
    holdsPair c (before ++ c :: c :: after) = true := by
  induction before with
  | nil => simp [holdsPair]
  | cons d before ih =>
      cases hrest : before ++ c :: c :: after with
      | nil => simp at hrest
      | cons e rest =>
          rw [List.cons_append, hrest, holdsPair, ← hrest, ih, Bool.or_true]

theorem holdsPair_eq_false {c : Char} {cs : List Char} (habsent : c ∉ cs) :
    holdsPair c cs = false := by
  induction cs with
  | nil => rfl
  | cons d cs ih =>
      rw [List.mem_cons, not_or] at habsent
      cases cs with
      | nil => rfl
      | cons e cs => simp [holdsPair, ih habsent.2, Ne.symm habsent.1]

theorem isComposite_alternatives (first second : String) (rest : List String) :
    isComposite (alternatives (first :: second :: rest)) = true := by
  have hbars : holdsPair '|' (alternatives (first :: second :: rest)).toList = true := by
    rw [toList_alternatives]
    exact holdsPair_append '|' first.toList _
  simp [isComposite, hbars]

theorem IsPlainValue.isComposite_eq_false {raw : String} (hraw : IsPlainValue raw) :
    isComposite raw = false := by
  have habsent : ∀ c, isValueChar c = false → c ∉ raw.toList := by
    intro c hc hmem
    rw [hraw.chars c hmem] at hc
    cases hc
  simp [isComposite, holdsPair_eq_false (habsent '&' rfl), holdsPair_eq_false (habsent '|' rfl),
    habsent '(' rfl, habsent ')' rfl]

/-- The words that ask for absent values have no operator and no parenthesis. -/
theorem NullCheck.isAsked_eq_false {raw : String} {c : Char} (hc : c ∈ ['|', '&', '(', ')'])
    (hmem : c ∈ raw.toList) : NullCheck.isAsked raw = false := by
  have hmarks : (['|', '&', '(', ')'].all fun c => !Text.isBlank c && c.toLower == c &&
      NullCheck.words.all fun word => !word.1.toList.contains c) = true := by decide
  have hmark := List.all_eq_true.mp hmarks c hc
  simp only [Bool.and_eq_true, Bool.not_eq_true', beq_iff_eq, List.all_eq_true] at hmark
  obtain ⟨⟨hblank, hlower⟩, hwords⟩ := hmark
  rw [Bool.eq_false_iff]
  intro hasked
  obtain ⟨word, hword, hsame⟩ := List.lookup_isSome_iff.mp hasked
  have hmemWord : c ∈ word.1.toList := by
    rw [← eq_of_beq hsame, String.toList_ofList]
    exact List.mem_map.mpr ⟨c, Text.mem_strip hmem hblank, hlower⟩
  have habsent := hwords word hword
  simp [hmemWord] at habsent

end Text

section Reading

theorem IsPlainValue.isValueText {raw : String} (hraw : IsPlainValue raw) : IsValueText raw := by
  refine ⟨?_, hraw.chars⟩
  rintro rfl
  exact absurd hraw.notBlank (by decide)

theorem IsPlainValue.tokensFrom_append {raw : String} (hraw : IsPlainValue raw) (position : Nat)
    {rest : List Char} (hrest : EndsValue rest) :
    tokensFrom position (raw.toList ++ rest) =
      (tokensFrom (position + byteLength raw.toList) rest).map (⟨.value raw, position⟩ :: ·) := by
  refine tokensFrom_lexeme ⟨.value raw, position⟩ ?_
  rintro text heq
  cases heq
  exact ⟨hraw.isValueText, hrest⟩

/-- The kinds of the tokens of alternatives. -/
def alternativeKinds (first : String) (rest : List String) : List TokenKind :=
  .value first :: rest.flatMap fun raw => [.or, .value raw]

theorem exists_tokensFrom_alternatives {first : String} {rest : List String}
    (hplain : ∀ raw ∈ first :: rest, IsPlainValue raw) (position : Nat) :
    ∃ tokens, tokensFrom position (alternatives (first :: rest)).toList = .ok tokens ∧
      tokens.map Token.kind = alternativeKinds first rest := by
  have hfirst := hplain first List.mem_cons_self
  induction rest generalizing first position with
  | nil =>
      have hlast : tokensFrom position (first.toList ++ []) = _ :=
        hfirst.tokensFrom_append position (by simp [EndsValue])
      rw [List.append_nil, tokensFrom] at hlast
      rw [alternatives_singleton]
      exact ⟨[⟨.value first, position⟩], hlast, rfl⟩
  | cons second rest ih =>
      have hrest := fun raw hraw => hplain raw (List.mem_cons_of_mem first hraw)
      rw [toList_alternatives, hfirst.tokensFrom_append position (by simp [EndsValue, isValueChar]),
        tokensFrom]
      obtain ⟨tokens, htokens, hkinds⟩ := ih hrest
        (position + byteLength first.toList + 2) (hrest second List.mem_cons_self)
      rw [htokens]
      refine ⟨_, rfl, ?_⟩
      rw [List.map_cons, List.map_cons, hkinds]
      rfl

/-- The expression of alternatives, joined from the left. -/
def alternativeTree (first : String) (rest : List String) : Tree :=
  rest.foldl (fun tree raw => tree.or (.leaf raw)) (.leaf first)

theorem phrase_foldl_or {before : List TokenKind} {tree : Tree} (h : Phrase .or before tree)
    (rest : List String) :
    Phrase .or (before ++ rest.flatMap fun raw => [.or, .value raw])
      (rest.foldl (fun tree raw => tree.or (.leaf raw)) tree) := by
  induction rest generalizing before tree with
  | nil => simpa using h
  | cons raw rest ih =>
      have hnext := ih (h.or (.ofAtom (.value raw)))
      rw [List.append_assoc] at hnext
      exact hnext

theorem phrase_alternatives (first : String) (rest : List String) :
    Phrase .or (alternativeKinds first rest) (alternativeTree first rest) :=
  phrase_foldl_or (.ofAnd (.ofAtom (.value first))) rest

theorem leaves_alternativeTree (first : String) (rest : List String) :
    (alternativeTree first rest).leaves = first :: rest := by
  have hvalues : (rest.flatMap fun raw => [TokenKind.or, .value raw]).filterMap TokenKind.value? =
      rest := by
    induction rest with
    | nil => rfl
    | cons raw rest ih => simp [List.filterMap_cons, TokenKind.value?, ih]
  rw [(phrase_alternatives first rest).leaves_eq, alternativeKinds, List.filterMap_cons, hvalues]
  rfl

theorem ofText_alternatives {first : String} {rest : List String}
    (hplain : ∀ raw ∈ first :: rest, IsPlainValue raw) :
    Tree.ofText (alternatives (first :: rest)) = .ok (alternativeTree first rest) := by
  obtain ⟨tokens, htokens, hkinds⟩ := exists_tokensFrom_alternatives hplain 0
  have hphrase := phrase_alternatives first rest
  rw [← hkinds] at hphrase
  have htree : Tree.ofTokens tokens = .ok (alternativeTree first rest) :=
    Tree.ofTokens_of_phrase hphrase
  have hread : FilterSql.tokens (alternatives (first :: rest)) = .ok tokens := htokens
  rw [Tree.ofText, hread]
  exact htree

end Reading

namespace Predicate

theorem none_or {predicate : Predicate} (hnames : (predicate.joins.map Join.asName).Nodup) :
    Predicate.none.or predicate = predicate := by
  have hjoins : predicate.joins.foldl (fun joins join => join.insertInto joins) [] =
      predicate.joins := Join.foldl_insertInto_of_nodup hnames
  rcases predicate with ⟨condition, joins⟩
  simp only [Predicate.or, combine, none, mergeConditions]
  rw [hjoins]

theorem eq_outerJoins_iff {predicate : Predicate} :
    predicate = predicate.outerJoins ↔ ∀ join ∈ predicate.joins, join.kind = .left := by
  constructor
  · intro heq join hjoin
    rw [heq] at hjoin
    obtain ⟨inner, -, rfl⟩ := List.mem_map.mp hjoin
    rfl
  · intro hleft
    have hsame : ∀ join ∈ predicate.joins, id join = join.outer := by
      intro join hjoin
      rw [Join.outer, ← hleft join hjoin]
      rfl
    rw [outerJoins, ← List.map_congr_left hsame, List.map_id]

end Predicate

namespace Field

variable {scope : Scope} {field : Field}

theorem outerJoins_valuePredicate {raw : String} (hasked : NullCheck.isAsked raw = true) :
    (field.valuePredicate scope raw).outerJoins = field.valuePredicate scope raw := by
  rcases (@makes_valuePredicate scope field raw).joins with hjoins | ⟨hcheck, -⟩
  · symm
    rw [Predicate.eq_outerJoins_iff, hjoins]
    simp
  · rw [hasked] at hcheck
    cases hcheck

theorem treePredicate_foldl_or (tree : Tree) (rest : List String) :
    field.treePredicate scope (rest.foldl (fun tree raw => tree.or (.leaf raw)) tree) =
      (rest.map (field.valuePredicate scope)).foldl Predicate.or
        (field.treePredicate scope tree) := by
  induction rest generalizing tree with
  | nil => rfl
  | cons raw rest ih =>
      rw [List.foldl_cons, ih]
      rfl

theorem any_map_valuePredicate (first : String) (rest : List String) :
    Predicate.any ((first :: rest).map (field.valuePredicate scope)) =
      field.treePredicate scope (alternativeTree first rest) := by
  rw [alternativeTree, treePredicate_foldl_or, Predicate.any, List.map_cons, List.foldl_cons,
    Predicate.none_or (nodup_joins_valuePredicate scope field first)]
  rfl

theorem filterPredicate_of_isPlainValue {raw : String} (hraw : IsPlainValue raw) :
    field.filterPredicate scope raw = .ok (field.valuePredicate scope raw) := by
  rw [filterPredicate, if_pos]
  simp [hraw.isComposite_eq_false]

/-- What the values make one by one, in an expression; a question for absent values among them
makes left joins. -/
theorem filterPredicate_alternatives {first : String} {rest : List String}
    (hplain : ∀ raw ∈ first :: rest, IsPlainValue raw) :
    field.filterPredicate scope (alternatives (first :: rest)) =
      .ok (if field.isRelation && (first :: rest).any NullCheck.isAsked then
        (Predicate.any ((first :: rest).map (field.valuePredicate scope))).outerJoins
      else Predicate.any ((first :: rest).map (field.valuePredicate scope))) := by
  cases rest with
  | nil =>
      rw [alternatives_singleton, filterPredicate_of_isPlainValue (hplain first List.mem_cons_self),
        any_map_valuePredicate]
      split
      next hasked =>
        have hfirst : NullCheck.isAsked first = true := by
          simpa using (Bool.and_eq_true_iff.mp hasked).2
        exact congrArg Except.ok (outerJoins_valuePredicate hfirst).symm
      next => rfl
  | cons second rest =>
      have hbar : '|' ∈ (alternatives (first :: second :: rest)).toList := by
        rw [toList_alternatives]
        exact List.mem_append_right _ List.mem_cons_self
      have hread : ¬ (NullCheck.isAsked (alternatives (first :: second :: rest)) ||
          !isComposite (alternatives (first :: second :: rest))) = true := by
        simp [NullCheck.isAsked_eq_false List.mem_cons_self hbar, isComposite_alternatives]
      rw [filterPredicate, if_neg hread, ofText_alternatives hplain, any_map_valuePredicate]
      simp only [bind, Except.bind, Tree.anyLeaf, leaves_alternativeTree]
      split <;> rfl

theorem nodup_joins_filterPredicate {raw : String} {predicate : Predicate}
    (hpredicate : field.filterPredicate scope raw = .ok predicate) :
    (predicate.joins.map Join.asName).Nodup := by
  apply (assembled_filterPredicate hpredicate).nodup_joins
  intro part hpart
  obtain ⟨leaf, -, rfl⟩ := List.mem_map.mp hpart
  exact nodup_joins_valuePredicate scope field leaf

end Field

namespace Schema

theorem fieldValues_of_isPlainValue (schema : Schema) (config : Config) (key : String)
    (field : Field) {values : List String} (hplain : ∀ raw ∈ values, IsPlainValue raw) :
    schema.fieldValues config key field values =
      .ok (.any (values.map (field.valuePredicate (config.scope schema.tableName)))) := by
  have hvalues : values.mapM (field.filterPredicate (config.scope schema.tableName)) =
      .ok (values.map (field.valuePredicate (config.scope schema.tableName))) := by
    rw [mapM_eq_ok, List.forall₂_map_right_iff, List.forall₂_same]
    intro raw hraw
    exact Field.filterPredicate_of_isPlainValue (hplain raw hraw)
  rw [fieldValues, hvalues]
  rfl

theorem fieldValues_singleton {schema : Schema} {config : Config} (key : String) {field : Field}
    {raw : String} {predicate : Predicate}
    (hpredicate : field.filterPredicate (config.scope schema.tableName) raw = .ok predicate) :
    schema.fieldValues config key field [raw] = .ok predicate := by
  have hone : [raw].mapM (field.filterPredicate (config.scope schema.tableName)) =
      .ok [predicate] :=
    mapM_eq_ok.mpr (.cons hpredicate .nil)
  rw [fieldValues, hone]
  exact congrArg Except.ok (Predicate.none_or (Field.nodup_joins_filterPredicate hpredicate))

theorem usableValues_eq_values {config : Config} {value : FilterValue}
    (hlength : ∀ raw ∈ value.values, raw.utf8ByteSize ≤ config.maxFilterLength.toNat)
    (hblank : ∀ raw ∈ value.values, Text.isBlankText raw = false) :
    usableValues config value = value.values := by
  rw [usableValues, List.filter_eq_self]
  intro raw hraw
  simp [hlength raw hraw, hblank raw hraw]

/-- A repeated key asks for what its values ask for under `||`.  The two predicates differ only
where one of the values asks for absent values of a relation: the expression makes left joins
of all joins, the repeated key leaves them as they are.  So they are the same exactly when
there is no such value or the joins are left joins anyway. -/
theorem fieldValues_repeated (schema : Schema) (config : Config) (key : String) (field : Field)
    {values : List String} (hvalues : values ≠ []) (hplain : ∀ raw ∈ values, IsPlainValue raw)
    (hlength : ∀ raw ∈ alternatives values :: values,
      raw.utf8ByteSize ≤ config.maxFilterLength.toNat) :
    ∃ repeated combined : Predicate,
      schema.fieldValues config key field (usableValues config (.many values)) = .ok repeated ∧
      schema.fieldValues config key field (usableValues config (.single (alternatives values))) =
        .ok combined ∧
      field.filterPredicate (config.scope schema.tableName) (alternatives values) =
        .ok combined ∧
      combined = (if field.isRelation && values.any NullCheck.isAsked then repeated.outerJoins
        else repeated) ∧
      (repeated = combined ↔
        (field.isRelation = true → (∃ raw ∈ values, NullCheck.isAsked raw = true) →
          ∀ join ∈ repeated.joins, join.kind = .left)) := by
  obtain ⟨first, rest, rfl⟩ := List.exists_cons_of_ne_nil hvalues
  have hmany : usableValues config (.many (first :: rest)) = first :: rest :=
    usableValues_eq_values (fun raw hraw => hlength raw (List.mem_cons_of_mem _ hraw))
      fun raw hraw => (hplain raw hraw).notBlank
  have hsingle : usableValues config (.single (alternatives (first :: rest))) =
      [alternatives (first :: rest)] := by
    apply usableValues_eq_values
    · rintro raw hraw
      exact hlength raw (List.mem_cons.mpr (Or.inl (List.mem_singleton.mp hraw)))
    · intro raw hraw
      rw [List.mem_singleton.mp hraw]
      exact isBlankText_alternatives (hplain first List.mem_cons_self).notBlank rest
  have hrepeated := schema.fieldValues_of_isPlainValue config key field hplain
  have hcombined := @Field.filterPredicate_alternatives (config.scope schema.tableName) field
    first rest hplain
  rw [hmany, hsingle]
  refine ⟨_, _, hrepeated, fieldValues_singleton key hcombined, hcombined, rfl, ?_⟩
  split
  next hasked =>
    obtain ⟨hrelation, hany⟩ := Bool.and_eq_true_iff.mp hasked
    rw [Predicate.eq_outerJoins_iff]
    exact ⟨fun hleft _ _ => hleft, fun hleft => hleft hrelation (List.any_eq_true.mp hany)⟩
  next hasked =>
    refine iff_of_true rfl fun hrelation hany => ?_
    rw [hrelation, Bool.true_and] at hasked
    exact absurd (List.any_eq_true.mpr hany) hasked

end Schema

namespace RepeatedValues

/-- A foreign key that is searched through a name and a code. -/
def companyField : Field :=
  (Field.foreignKey "company_id" "int" "companies" "id").searchedThrough "name:string|code:int"

/-- Absent keys, prefixes and values that do not fit one of the related columns, at once. -/
theorem fieldValues_repeated_company :
    (["null", "^ac", "in:7,x"] ≠ [] ∧ (∀ raw ∈ ["null", "^ac", "in:7,x"], IsPlainValue raw) ∧
      ∀ raw ∈ alternatives ["null", "^ac", "in:7,x"] :: ["null", "^ac", "in:7,x"],
        raw.utf8ByteSize ≤ Config.standard.maxFilterLength.toNat) ∧
    ∃ repeated combined : Predicate,
      (Schema.ofTable "users").fieldValues .standard "company" companyField
        (Schema.usableValues .standard (.many ["null", "^ac", "in:7,x"])) = .ok repeated ∧
      (Schema.ofTable "users").fieldValues .standard "company" companyField
        (Schema.usableValues .standard (.single (alternatives ["null", "^ac", "in:7,x"]))) =
          .ok combined ∧
      companyField.filterPredicate (Config.standard.scope (Schema.ofTable "users").tableName)
        (alternatives ["null", "^ac", "in:7,x"]) = .ok combined ∧
      combined = (if companyField.isRelation &&
          ["null", "^ac", "in:7,x"].any NullCheck.isAsked then repeated.outerJoins
        else repeated) ∧
      (repeated = combined ↔
        (companyField.isRelation = true →
          (∃ raw ∈ ["null", "^ac", "in:7,x"], NullCheck.isAsked raw = true) →
          ∀ join ∈ repeated.joins, join.kind = .left)) := by
  have hvalues : ["null", "^ac", "in:7,x"] ≠ [] := by decide
  have hplain : ∀ raw ∈ ["null", "^ac", "in:7,x"], IsPlainValue raw := by decide
  have hlength : ∀ raw ∈ alternatives ["null", "^ac", "in:7,x"] :: ["null", "^ac", "in:7,x"],
      raw.utf8ByteSize ≤ Config.standard.maxFilterLength.toNat := by decide
  exact ⟨⟨hvalues, hplain, hlength⟩, Schema.fieldValues_repeated (Schema.ofTable "users") .standard
    "company" companyField hvalues hplain hlength⟩

/-- A row without a company. -/
def rowWithoutCompany : BaseRow :=
  ⟨fun _ => .null, fun _ _ => none⟩

/-- A repeated key is not always the same as `||`: users of no company or of one named so are
asked for, and those of no company are lost where the key is repeated. -/
theorem repeated_loses_rows :
    (∀ raw ∈ ["null", "acme"], IsPlainValue raw) ∧
    ∃ repeated combined : Predicate,
      (Schema.ofTable "users").fieldValues .standard "company" companyField
        (Schema.usableValues .standard (.many ["null", "acme"])) = .ok repeated ∧
      companyField.filterPredicate (Config.standard.scope (Schema.ofTable "users").tableName)
        "null||acme" = .ok combined ∧
      repeated.joins.map Join.kind = [.inner] ∧ combined.joins.map Join.kind = [.left] ∧
      ¬ repeated.Keeps .plain "users" rowWithoutCompany ∧
      combined.Keeps .plain "users" rowWithoutCompany := by
  have hplain : ∀ raw ∈ ["null", "acme"], IsPlainValue raw := by decide
  have hcombined := @Field.filterPredicate_alternatives
    (Config.standard.scope (Schema.ofTable "users").tableName) companyField "null" ["acme"] hplain
  have htext : alternatives ["null", "acme"] = "null||acme" := by decide
  rw [htext] at hcombined
  refine ⟨hplain, _, _, rfl, hcombined, ?_⟩
  decide

end RepeatedValues

end FilterSql

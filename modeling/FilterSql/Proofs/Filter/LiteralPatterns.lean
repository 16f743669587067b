/-
Texts that are searched for parts.

A part that a text starts with, has in it or ends with is looked for by a pattern with percent
signs about it.  The pattern finds the part as it is written unless the part has one of the
signs of patterns; then there is a text on which the two differ.
-/
import FilterSql.Proofs.Filter.ConditionForms
import FilterSql.Proofs.Filter.OperatorText
import FilterSql.Proofs.Sql.LikePattern
import FilterSql.Proofs.Text.Lowercase

namespace FilterSql

namespace Operator

/-- The operators that search a text for a part. -/
inductive IsSearch : Operator → Prop
  | startsWith : IsSearch .startsWith
  | contains : IsSearch .contains
  | endsWith : IsSearch .endsWith

/-- The part is where the operator looks for it. -/
def Finds (operator : Operator) (part text : List Char) : Prop :=
  match operator with
  | .startsWith => part <+: text
  | .contains => part <:+: text
  | .endsWith => part <:+ text
  | _ => False

/-- The pattern with a part in it. -/
def wrap (operator : Operator) (part : List Char) : List Char :=
  match operator with
  | .startsWith => part ++ ['%']
  | .contains => '%' :: (part ++ ['%'])
  | .endsWith => '%' :: part
  | _ => part

variable {operator : Operator} {part text : List Char}

theorem finds_self (hsearch : operator.IsSearch) (part : List Char) :
    operator.Finds part part := by
  cases hsearch with
  | startsWith => exact List.prefix_rfl
  | contains => exact List.infix_rfl
  | endsWith => exact List.suffix_rfl

/-- A part that is found in a text that is no longer is the text. -/
theorem Finds.eq_of_length_le (hfinds : operator.Finds part text)
    (hlength : text.length ≤ part.length) : part = text := by
  cases operator with
  | startsWith => exact List.IsPrefix.eq_of_length_le hfinds hlength
  | contains => exact List.IsInfix.eq_of_length_le hfinds hlength
  | endsWith => exact List.IsSuffix.eq_of_length_le hfinds hlength
  | _ => cases hfinds

/-- A part without signs of patterns is found as it is written. -/
theorem like_wrap_iff (hsearch : operator.IsSearch) (hplain : ∀ c ∈ part, ¬IsPatternSign c) :
    Like (operator.wrap part) text ↔ operator.Finds part text := by
  have hall : ∀ rest, Like ['%'] rest := fun rest =>
    Like.percent_iff.mpr ⟨[], List.nil_suffix, .nil⟩
  have hfront : ∀ text, Like (part ++ ['%']) text ↔ part <+: text := by
    intro text
    rw [Like.append_iff hplain]
    constructor
    · rintro ⟨rest, rfl, -⟩
      exact List.prefix_append part rest
    · rintro ⟨rest, rfl⟩
      exact ⟨rest, rfl, hall rest⟩
  cases hsearch with
  | startsWith => exact hfront text
  | contains =>
      simp only [wrap, Finds, Like.percent_iff, hfront, List.infix_iff_prefix_suffix, and_comm]
  | endsWith =>
      simp only [wrap, Finds, Like.percent_iff, Like.self_iff hplain, exists_eq_right]

/-- The sample of a part matches the pattern with the part, but where nothing does. -/
theorem like_wrap_sample (hsearch : operator.IsSearch)
    (hcomplete : operator = .endsWith → isComplete part = true) :
    Like (operator.wrap part) (sample part) := by
  cases hsearch with
  | startsWith => exact Like.sample_append_percent part
  | contains => exact .skip (Like.sample_append_percent part)
  | endsWith => exact .skip (Like.sample_of_isComplete (hcomplete rfl))

theorem endsWord_percent : Text.EndsWord '%' where
  isLower := by decide +kernel
  notCased := by decide +kernel
  notIgnorable := by decide +kernel

/-- The percent signs about a part do not change its lower case. -/
theorem lower_wrap (operator : Operator) (part : List Char) :
    Text.lower (operator.wrap part) = operator.wrap (Text.lower part) := by
  cases operator with
  | startsWith => exact Text.lower_append_singleton endsWord_percent part
  | contains =>
      rw [wrap, Text.lower_cons endsWord_percent, Text.lower_append_singleton endsWord_percent]
      rfl
  | endsWith => exact Text.lower_cons endsWord_percent part
  | _ => rfl

theorem isSign_of_isPatternSign {c : Char} (hsign : IsPatternSign c) : Text.IsSign c := by
  obtain rfl | rfl | rfl := hsign
  · exact ⟨by decide +kernel, by decide⟩
  · exact ⟨by decide +kernel, by decide⟩
  · exact ⟨by decide +kernel, by decide⟩

/-- Among texts of certain characters, which the part has and the dash and the percent sign are,
the pattern finds the part as it is written when the part has no signs of patterns. -/
theorem like_wrap_iff_finds_iff {P : Char → Prop} (hsearch : operator.IsSearch)
    (hdash : P '-') (hpercent : P '%') (hpart : ∀ c ∈ part, P c) :
    (∀ text, (∀ c ∈ text, P c) → (Like (operator.wrap part) text ↔ operator.Finds part text)) ↔
      ∀ c ∈ part, ¬IsPatternSign c := by
  constructor
  · intro hliteral
    by_cases hcomplete : operator = .endsWith → isComplete part = true
    · have hlike := like_wrap_sample hsearch hcomplete
      have hsample := of_mem_sample hdash hpercent hpart
      have hfinds := (hliteral _ hsample).mp hlike
      exact not_isPatternSign_of_sample_eq
        (hfinds.eq_of_length_le (length_sample_le part)).symm
    · -- the part ends in a lone backslash, so that no text matches, not even the part itself
      have hlike := (hliteral part hpart).mpr (finds_self hsearch part)
      have hwhole := hlike.isComplete
      rw [Classical.not_imp] at hcomplete
      obtain ⟨rfl, hlone⟩ := hcomplete
      rw [wrap, isComplete_cons (by decide)] at hwhole
      exact absurd hwhole hlone
  · intro hplain text _
    exact like_wrap_iff hsearch hplain

end Operator

/-- A database that matches texts with patterns, and in lower case as filters are. -/
structure Engine.MatchesTexts (engine : Engine) : Prop where
  like : ∀ s pattern, engine.like (.string s) (.string pattern) = true ↔
    Like pattern.toList s.toList
  lower : ∀ s, engine.lower (.string s) = .string (Text.lowered s)
  text : ∀ s, engine.text (.string s) = .string s

namespace Target

variable {target : Target} {engine : Engine}

/-- What a target is searched in: strings in lower case, all else by its text. -/
def searched (target : Target) : Expr :=
  if target.type = some .string then .call "LOWER" [target.expr] else .castText target.expr

/-- A text as a target is searched for it: strings in lower case, all else as it is. -/
def searchText (target : Target) (s : String) : List Char :=
  if target.type = some .string then Text.lower s.toList else s.toList

/-- The text of a value that is there: of a string column the string, of another its text form. -/
inductive Shows (target : Target) (engine : Engine) : Value → String → Prop
  | string (hstring : target.type = some .string) (s : String) : Shows target engine (.string s) s
  | form {value : Value} {s : String} (hother : target.type ≠ some .string)
      (hpresent : value.isNull = false) (htext : engine.text value = .string s) :
      Shows target engine value s

/-- The characters of the texts that a target is searched for. -/
def IsSearched (target : Target) (c : Char) : Prop :=
  target.type = some .string → Text.IsLower c

theorem isSearched_dash (target : Target) : target.IsSearched '-' :=
  fun _ => by decide +kernel

theorem isSearched_percent (target : Target) : target.IsSearched '%' :=
  fun _ => Operator.endsWord_percent.isLower

/-- Each such text is searched as it is. -/
theorem searchText_ofList {text : List Char} (htext : ∀ c ∈ text, target.IsSearched c) :
    target.searchText (String.ofList text) = text := by
  rw [searchText, String.toList_ofList]
  split
  next hstring => exact Text.lower_of_forall fun c hc => htext c hc hstring
  next => rfl

theorem shows_string (target : Target) (hengine : engine.MatchesTexts) (s : String) :
    target.Shows engine (.string s) s := by
  by_cases hstring : target.type = some .string
  · exact .string hstring s
  · exact .form hstring rfl (hengine.text s)

theorem isSearched_of_mem_searchText {s : String} :
    ∀ c ∈ target.searchText s, target.IsSearched c := by
  intro c hc hstring
  rw [searchText, if_pos hstring] at hc
  exact Text.isLower_of_mem_lower hc

theorem forall_not_isPatternSign_congr {first second : List Char}
    (hmem : ∀ c, IsPatternSign c → (c ∈ first ↔ c ∈ second)) :
    (∀ c ∈ first, ¬IsPatternSign c) ↔ ∀ c ∈ second, ¬IsPatternSign c := by
  constructor
  · intro hplain c hc hsign
    exact hplain c ((hmem c hsign).mpr hc) hsign
  · intro hplain c hc hsign
    exact hplain c ((hmem c hsign).mp hc) hsign

/-- Lower case leaves the signs of patterns where they are. -/
theorem forall_mem_searchText_iff {s : String} :
    (∀ c ∈ target.searchText s, ¬IsPatternSign c) ↔ ∀ c ∈ s.toList, ¬IsPatternSign c := by
  rw [searchText]
  split
  next =>
    have hmem : ∀ c, IsPatternSign c → (c ∈ Text.lower s.toList ↔ c ∈ s.toList) :=
      fun c hsign => Text.mem_lower_iff (Operator.isSign_of_isPatternSign hsign)
    exact forall_not_isPatternSign_congr hmem
  next => rfl

theorem forall_mem_trimmed_iff {s : String} :
    (∀ c ∈ (Text.trimmed s).toList, ¬IsPatternSign c) ↔ ∀ c ∈ s.toList, ¬IsPatternSign c := by
  have hmem : ∀ c, IsPatternSign c → (c ∈ (Text.trimmed s).toList ↔ c ∈ s.toList) := by
    intro c hsign
    rw [Text.trimmed, String.toList_ofList]
    have hkept : Text.isBlank c = false := by
      obtain rfl | rfl | rfl := hsign <;> rfl
    exact ⟨Text.mem_of_mem_strip, fun hc => Text.mem_strip hc hkept⟩
  exact forall_not_isPatternSign_congr hmem

/-- A search is for the searched text of the operand with percent signs about it. -/
theorem pattern?_of_isSearch (target : Target) {operator : Operator}
    (hsearch : operator.IsSearch) (operand : String) :
    target.pattern? operator operand = some (.binary .like target.searched
      (.value (.string (String.ofList (operator.wrap (target.searchText operand)))))) := by
  have hpattern : likePattern? operand operator =
      some (String.ofList (operator.wrap operand.toList)) := by
    cases hsearch with
    | startsWith | contains | endsWith =>
        simp [likePattern?, Operator.wrap, String.append_assoc]
  rw [pattern?, hpattern, Option.bind_eq_bind, Option.bind_some, searched, searchText]
  split
  next => rw [Text.lowered, String.toList_ofList, Operator.lower_wrap]; rfl
  next => rfl

/-- It is true of the values whose text matches. -/
theorem truth_like_searched {engine : Engine} (hengine : engine.MatchesTexts)
    {read : ColumnName → Value} {s : String} (hshows : target.Shows engine (read target.column) s)
    (pattern : List Char) :
    (Expr.binary .like target.searched (.value (.string (String.ofList pattern)))).truth engine
        read = .yes ↔ Like pattern (target.searchText s) := by
  have hscalar : target.searched.scalar engine read =
      .string (String.ofList (target.searchText s)) := by
    generalize hvalue : read target.column = value at hshows
    cases hshows with
    | string hstring =>
        rw [searched, if_pos hstring, searchText, if_pos hstring]
        simp only [Expr.scalar, expr, hvalue, if_true]
        exact hengine.lower s
    | form hother hpresent htext =>
        rw [searched, if_neg hother, searchText, if_neg hother, String.ofList_toList]
        simp only [Expr.scalar, expr, hvalue, Value.mapPresent, hpresent, Bool.false_eq_true,
          if_false]
        exact htext
  have hlike := hengine.like (String.ofList (target.searchText s)) (String.ofList pattern)
  rw [String.toList_ofList, String.toList_ofList] at hlike
  rw [← hlike, ← Truth.ofBool_eq_yes]
  simp only [Expr.truth, hscalar]
  rfl

end Target

/-- A search of a column for a part is true of exactly the texts that have the part where the
operator looks for it, in lower case on a string column, when the part has none of the signs of
patterns, and not otherwise. -/
theorem ColumnName.truth_search_iff {column : ColumnName} {cast : String} {target : Target}
    {engine : Engine} (hengine : engine.MatchesTexts)
    (htarget : Target.ofCast? column cast = some target) {operator : Operator}
    (hsearch : operator.IsSearch) {operand : String} (hblank : Text.isBlankText operand = false)
    (mode : DefaultMatch) :
    ∃ expr, column.condition? cast (operator.symbol ++ operand) mode = some expr ∧
      ((∀ (read : ColumnName → Value) (s : String), target.Shows engine (read column) s →
          (expr.truth engine read = .yes ↔
            operator.Finds (target.searchText (Text.trimmed operand)) (target.searchText s))) ↔
        ∀ c ∈ operand.toList, ¬IsPatternSign c) := by
  refine ⟨.binary .like target.searched (.value (.string
    (String.ofList (operator.wrap (target.searchText (Text.trimmed operand)))))), ?_, ?_⟩
  · have hequals : operator.takesEquals = true → operand.toList.head? ≠ some '=' := by
      cases hsearch <;> nofun
    rw [condition?_symbol_append htarget operator hblank hequals,
      ← Target.pattern?_of_isSearch target hsearch]
    cases hsearch <;> rfl
  · have hoperand : (∀ c ∈ target.searchText (Text.trimmed operand), ¬IsPatternSign c) ↔
        ∀ c ∈ operand.toList, ¬IsPatternSign c := by
      rw [Target.forall_mem_searchText_iff, Target.forall_mem_trimmed_iff]
    rw [← Target.column_of_ofCast? htarget, ← hoperand,
      ← Operator.like_wrap_iff_finds_iff hsearch target.isSearched_dash target.isSearched_percent
        Target.isSearched_of_mem_searchText]
    constructor
    · intro hliteral text htext
      have hshows := target.shows_string hengine (String.ofList text)
      have htruth := hliteral (fun _ => .string (String.ofList text)) _ hshows
      rw [Target.truth_like_searched hengine hshows, Target.searchText_ofList htext] at htruth
      exact htruth
    · intro hlike read s hshows
      rw [Target.truth_like_searched hengine hshows]
      exact hlike _ Target.isSearched_of_mem_searchText

/-- The plain database, with the patterns of LIKE. -/
def Engine.matching : Engine where
  eq := plain.eq
  lt := plain.lt
  like
    | .string text, .string pattern => decide (Like pattern.toList text.toList)
    | _, _ => false
  lower := plain.lower
  text := plain.text
  part := plain.part

theorem Engine.matchesTexts_matching : matching.MatchesTexts where
  like _ _ := decide_eq_true_iff
  lower _ := rfl
  text _ := rfl

namespace LiteralPatterns

/-- The path of a file. -/
def path : ColumnName := ⟨some "files", "path"⟩

theorem ofCast?_path : Target.ofCast? path "string" = some ⟨path, some .string⟩ := by
  decide +kernel

/-- A part without signs is found in any case, and nothing else is. -/
theorem truth_search_path :
    ∃ expr, path.condition? "string" "~Report 50" .byType = some expr ∧
      (expr.truth .matching fun _ => .string "old/REPORT 50.txt") = .yes ∧
      (expr.truth .matching fun _ => .string "old/REPORT 5.txt") ≠ .yes := by
  have hblank : Text.isBlankText "Report 50" = false := rfl
  have hplain : ∀ c ∈ "Report 50".toList, ¬IsPatternSign c := by simp [IsPatternSign]
  obtain ⟨expr, hexpr, hliteral⟩ :=
    ColumnName.truth_search_iff Engine.matchesTexts_matching ofCast?_path .contains hblank .byType
  have htruth := hliteral.mpr hplain
  refine ⟨expr, hexpr, ?_, ?_⟩
  · rw [htruth _ _ (.string rfl _)]
    exact ⟨"old/".toList, ".txt".toList, by decide +kernel⟩
  · rw [ne_eq, htruth _ _ (.string rfl _), Operator.Finds]
    decide +kernel

/-- A percent sign finds a text without one, and a backslash does not find itself. -/
theorem search_not_literal :
    (∃ expr, path.condition? "string" "~50%" .byType = some expr ∧
      (expr.truth .matching fun _ => .string "report 500") = .yes ∧
      ¬Operator.Finds .contains (Text.lower "50%".toList) (Text.lower "report 500".toList)) ∧
    ∃ expr, path.condition? "string" "^c:\\temp" .byType = some expr ∧
      (expr.truth .matching fun _ => .string "c:\\temp") ≠ .yes ∧
      Operator.Finds .startsWith (Text.lower "c:\\temp".toList) (Text.lower "c:\\temp".toList) := by
  refine ⟨⟨_, rfl, ?_, ?_⟩, ⟨_, rfl, ?_, List.prefix_rfl⟩⟩
  · decide +kernel
  · rw [Operator.Finds]
    decide +kernel
  · decide +kernel

end LiteralPatterns

end FilterSql

/-
Fields written and read again.

A list of related columns is one text, with bars between the columns and a colon in each, and
nothing in it is escaped.  A list is read as it was written exactly when it could have been read
before: a column is not empty and has no colon, its cast may have some, neither has a bar or
blanks at its ends.  So what was read once comes back the same ever after.
-/
import FilterSql.Proofs.Text.Cuts
import FilterSql.Proofs.Traversal
import FilterSql.Schema.Field

namespace FilterSql

/-- A column that a list of columns can name. -/
structure RelatedColumn.IsListed (column : RelatedColumn) : Prop where
  column_ne : column.column ≠ ""
  column_trimmed : Text.trim column.column.toList = column.column.toList
  column_colon : ':' ∉ column.column.toList
  column_bar : '|' ∉ column.column.toList
  cast_trimmed : Text.trim column.cast.toList = column.cast.toList
  cast_bar : '|' ∉ column.cast.toList

namespace RelatedColumn

theorem isListed_of_trim {name cast : List Char} (hname : Text.trim name ≠ [])
    (hcolon : ':' ∉ name) (hbar : '|' ∉ name) (hcast : '|' ∉ cast) :
    IsListed ⟨String.ofList (Text.trim name), String.ofList (Text.trim cast)⟩ where
  column_ne := by simpa using hname
  column_trimmed := by simp
  column_colon := by
    rw [String.toList_ofList]
    exact fun hmem => hcolon (Text.mem_of_mem_strip hmem)
  column_bar := by
    rw [String.toList_ofList]
    exact fun hmem => hbar (Text.mem_of_mem_strip hmem)
  cast_trimmed := by simp
  cast_bar := by
    rw [String.toList_ofList]
    exact fun hmem => hcast (Text.mem_of_mem_strip hmem)

theorem isListed_of_ofPiece? {piece : List Char} {column : RelatedColumn} (hbar : '|' ∉ piece)
    (hcolumn : ofPiece? piece = some column) : column.IsListed := by
  have hpair : '|' ∉ Text.trim piece := fun hmem => hbar (Text.mem_of_mem_strip hmem)
  rw [ofPiece?] at hcolumn
  cases hcut : Text.cut? ':' (Text.trim piece) with
  | none =>
      simp only [hcut, Option.getD_none] at hcolumn
      split at hcolumn
      next => cases hcolumn
      next hname =>
        cases hcolumn
        have hcast : '|' ∉ ['s', 't', 'r', 'i', 'n', 'g'] := by decide
        exact isListed_of_trim (by simpa using hname) (Text.cut?_eq_none_iff.mp hcut) hpair hcast
  | some pair =>
      obtain ⟨name, cast⟩ := pair
      simp only [hcut, Option.getD_some] at hcolumn
      split at hcolumn
      next => cases hcolumn
      next hname =>
        cases hcolumn
        rw [Text.cut?_eq_some hcut, List.mem_append, List.mem_cons, not_or, not_or] at hpair
        exact isListed_of_trim (by simpa using hname) (Text.notMem_of_cut? hcut) hpair.1 hpair.2.2

theorem bar_notMem_chars {column : RelatedColumn} (hlisted : column.IsListed) :
    '|' ∉ column.chars := by
  rw [chars, List.mem_append, List.mem_cons]
  rintro (hbar | hbar | hbar)
  · exact hlisted.column_bar hbar
  · exact absurd hbar (by decide)
  · exact hlisted.cast_bar hbar

/-- The first colon of a column's text is the one that was put there. -/
theorem ofPiece?_chars {column : RelatedColumn} (hlisted : column.IsListed) :
    ofPiece? column.chars = some column := by
  have htrim : Text.trim column.chars = column.chars :=
    Text.strip_append_cons (by decide) hlisted.column_trimmed hlisted.cast_trimmed
  have hcut : Text.cut? ':' column.chars = some (column.column.toList, column.cast.toList) :=
    Text.cut?_append_cons hlisted.column_colon _
  have hsome : column.column.toList.isEmpty = false := by
    simpa using hlisted.column_ne
  simp [ofPiece?, htrim, hcut, hlisted.column_trimmed, hlisted.cast_trimmed, hsome]

end RelatedColumn

namespace Searchable

theorem isListed_of_ofText {text : String} {columns : List RelatedColumn}
    (htext : ofText text = related columns) : ∀ column ∈ columns, column.IsListed := by
  cases htext
  intro column hcolumn
  obtain ⟨piece, hpiece, hread⟩ := List.mem_filterMap.mp hcolumn
  exact RelatedColumn.isListed_of_ofPiece? (Text.notMem_of_mem_pieces hpiece) hread

theorem ofText_toText_of_isListed {columns : List RelatedColumn}
    (hlisted : ∀ column ∈ columns, column.IsListed) :
    ofText (related columns).toText = related columns := by
  cases columns with
  | nil => rfl
  | cons column columns =>
      have hbar : ∀ part ∈ (column :: columns).map RelatedColumn.chars, '|' ∉ part := by
        rw [List.forall_mem_map]
        exact fun other hother => RelatedColumn.bar_notMem_chars (hlisted other hother)
      have hread : ∀ other ∈ column :: columns,
          (RelatedColumn.ofPiece? ∘ RelatedColumn.chars) other = some other := by
        intro other hother
        rw [Function.comp_apply]
        exact RelatedColumn.ofPiece?_chars (hlisted other hother)
      rw [ofText, toText, String.toList_ofList, Text.pieces_join (by simp) hbar,
        List.filterMap_map, List.filterMap_congr hread, List.filterMap_some]

/-- A list is read as it was written exactly when a list can name its columns. -/
theorem ofText_toText_iff {columns : List RelatedColumn} :
    ofText (related columns).toText = related columns ↔ ∀ column ∈ columns, column.IsListed :=
  ⟨isListed_of_ofText, ofText_toText_of_isListed⟩

/-- What was read from a text is read again from its own text. -/
theorem ofText_toText_ofText (text : String) : ofText (ofText text).toText = ofText text :=
  ofText_toText_of_isListed (isListed_of_ofText rfl)

/-- Empty pieces are passed over, and only the first colon of a piece separates. -/
example : ofText " name : string:16 ||: x|label" =
    related [⟨"name", "string:16"⟩, ⟨"label", "string"⟩] := by
  rfl

end Searchable

/-- A field that the wire can hold: a list can name its columns, and its relation has a table. -/
structure Field.IsWritten (field : Field) : Prop where
  columns : ∀ columns, field.searchable = .related columns → ∀ column ∈ columns, column.IsListed
  target : ∀ relation ∈ field.relation, Text.isBlankText relation.belongsTo = false

namespace WireField

variable {wire : WireField} {field : Field}

theorem toField_eq_ok_iff :
    wire.toField = .ok field ↔ ∃ relation, wire.relation? = .ok relation ∧
      field = ⟨wire.dbColumn, wire.cast, wire.searchable.toSearchable, relation⟩ := by
  rw [toField, bind_eq_ok]
  simp only [pure, Except.pure, Except.ok.injEq, eq_comm]

theorem isBlankText_of_relation? {relation : Relation}
    (hrelation : wire.relation? = .ok (some relation)) :
    Text.isBlankText relation.belongsTo = false := by
  rw [relation?] at hrelation
  split at hrelation
  next =>
    split at hrelation
    next table htable =>
      cases hrelation
      simpa using (Option.filter_eq_some_iff.mp htable).2
    next => cases hrelation
  next => cases hrelation

theorem isWritten_of_toField (hfield : wire.toField = .ok field) : field.IsWritten := by
  obtain ⟨relation, hrelation, rfl⟩ := toField_eq_ok_iff.mp hfield
  constructor
  · intro columns hcolumns
    cases hsearchable : wire.searchable with
    | flag on => simp [hsearchable, WireSearchable.toSearchable] at hcolumns
    | columns text =>
        rw [hsearchable] at hcolumns
        exact Searchable.isListed_of_ofText hcolumns
  · rintro target ⟨⟩
    exact isBlankText_of_relation? hrelation

theorem relation?_ofField
    (htarget : ∀ relation ∈ field.relation, Text.isBlankText relation.belongsTo = false) :
    (ofField field).relation? = .ok field.relation := by
  cases hrelation : field.relation with
  | none => simp [relation?, ofField, Field.isRelation, hrelation]
  | some relation =>
      have hsome := htarget relation hrelation
      simp [relation?, ofField, Field.isRelation, hrelation, hsome, Option.filter]

theorem toSearchable_ofSearchable {searchable : Searchable}
    (hlisted : ∀ columns, searchable = .related columns → ∀ column ∈ columns, column.IsListed) :
    (WireSearchable.ofSearchable searchable).toSearchable = searchable := by
  cases searchable with
  | flag on => rfl
  | related columns => exact Searchable.ofText_toText_of_isListed (hlisted columns rfl)

theorem toField_ofField_of_isWritten (hwritten : field.IsWritten) :
    (ofField field).toField = .ok field := by
  refine toField_eq_ok_iff.mpr ⟨_, relation?_ofField hwritten.target, ?_⟩
  rw [ofField, toSearchable_ofSearchable hwritten.columns]

/-- A field that was read from the wire is read again as it is from its own wire form; these are
the fields whose columns a list can name and whose relation has a table.  A list of columns that
was read from a text is read again from its own text. -/
theorem toField_ofField_iff (field : Field) :
    ((ofField field).toField = .ok field ↔ ∃ wire : WireField, wire.toField = .ok field) ∧
      ((ofField field).toField = .ok field ↔ field.IsWritten) ∧
      ∀ text, Searchable.ofText (Searchable.ofText text).toText = .ofText text := by
  have hsame : (∃ wire : WireField, wire.toField = .ok field) →
      (ofField field).toField = .ok field := by
    rintro ⟨wire, hfield⟩
    exact toField_ofField_of_isWritten (isWritten_of_toField hfield)
  refine ⟨⟨fun hfield => ⟨ofField field, hfield⟩, hsame⟩, ?_, Searchable.ofText_toText_ofText⟩
  exact ⟨isWritten_of_toField, toField_ofField_of_isWritten⟩

end WireField

end FilterSql

/-
Fields of a model and their wire form.

A field says which column it stands for, how the column is cast, whether it is searched,
and to which other table it relates.  On the wire the relation is three flat keys and the
related columns are one text: `name:string|code:string`.
-/
import FilterSql.Json.Decode

namespace FilterSql

/-- A column of a related table with its cast. -/
structure RelatedColumn where
  column : String
  cast : String
deriving DecidableEq, Repr

/-- Whether a field is searched. -/
inductive Searchable
  | flag (on : Bool)
  /-- Through these columns of the related table. -/
  | related (columns : List RelatedColumn)
deriving DecidableEq, Repr

/-- The table and column that a foreign key points to. -/
structure Relation where
  belongsTo : String
  relatedField : String
deriving DecidableEq, Repr

/-- A field of a model; one without a column cannot be filtered on. -/
structure Field where
  dbColumn : Option String
  cast : String
  searchable : Searchable
  relation : Option Relation
deriving DecidableEq, Repr

/-- The column that one piece of a text names: column and cast about the first colon,
a string column without one; none for a piece without a column. -/
def RelatedColumn.ofPiece? (piece : List Char) : Option RelatedColumn :=
  let pair := Text.trim piece
  let (column, cast) := (Text.cut? ':' pair).getD (pair, ['s', 't', 'r', 'i', 'n', 'g'])
  let column := Text.trim column
  if column.isEmpty then none
  else some ⟨String.ofList column, String.ofList (Text.trim cast)⟩

/-- Column and cast about a colon. -/
def RelatedColumn.chars (column : RelatedColumn) : List Char :=
  column.column.toList ++ ':' :: column.cast.toList

namespace Searchable

/-- The related columns that a text lists between bars. -/
def ofText (text : String) : Searchable :=
  related ((Text.pieces '|' text.toList).filterMap RelatedColumn.ofPiece?)

/-- The text of a flag or of a list of columns. -/
def toText : Searchable → String
  | flag on => if on then "true" else "false"
  | related columns => String.ofList (Text.join '|' (columns.map RelatedColumn.chars))

end Searchable

namespace Field

/-- A field that stands for a column. -/
def ofColumn (dbColumn cast : String) : Field :=
  ⟨some dbColumn, cast, .flag false, none⟩

/-- A field that stands for a foreign key. -/
def foreignKey (dbColumn cast belongsTo relatedField : String) : Field :=
  ⟨some dbColumn, cast, .flag false, some ⟨belongsTo, relatedField⟩⟩

/-- The field, searched by its own column. -/
def searched (field : Field) : Field :=
  { field with searchable := .flag true }

/-- The field, searched through columns of the related table. -/
def searchedThrough (field : Field) (columns : String) : Field :=
  { field with searchable := .ofText columns }

/-- Whether the field relates to another table. -/
def isRelation (field : Field) : Bool :=
  field.relation.isSome

/-- Whether the field is searched, and by at least one column. -/
def isSearchable (field : Field) : Bool :=
  match field.searchable with
  | .flag on => on
  | .related columns => !columns.isEmpty

/-- The columns of the related table, where the field is searched through them. -/
def relatedColumns? (field : Field) : Option (List RelatedColumn) :=
  match field.relation, field.searchable with
  | some _, .related columns => if columns.isEmpty then none else some columns
  | _, _ => none

end Field

/-- What can be wrong with a field of the right shape. -/
inductive FieldError
  | missingTarget (column : String)
deriving DecidableEq, Repr

/-- The text of an error. -/
def FieldError.message : FieldError → String
  | missingTarget column => s!"Relation field on column '{column}' is missing 'belongs_to'"

/-- How a field is searched, on the wire. -/
inductive WireSearchable
  | flag (on : Bool)
  | columns (text : String)
deriving DecidableEq, Repr

/-- The flat keys of a field. -/
structure WireField where
  dbColumn : Option String
  cast : String
  searchable : WireSearchable
  relation : Bool
  belongsTo : Option String
  relatedField : Option String
deriving DecidableEq, Repr

namespace WireSearchable

/-- Read the list of related columns. -/
def toSearchable : WireSearchable → Searchable
  | flag on => .flag on
  | columns text => .ofText text

/-- Write the list of related columns. -/
def ofSearchable : Searchable → WireSearchable
  | .flag on => flag on
  | .related related => columns (Searchable.related related).toText

/-- A flag is a truth value, a list of columns a text. -/
def toJson : WireSearchable → Json
  | flag on => .bool on
  | columns text => .string text

/-- Take a flag or a list of columns. -/
def decode {ε : Type} : Decoder ε WireSearchable
  | .bool on => .ok (flag on)
  | .string text => .ok (columns text)
  | _ => .error .shape

end WireSearchable

namespace WireField

/-- A field without any key. -/
def blank : WireField :=
  ⟨none, "", .flag false, false, none, none⟩

/-- The relation of a field: it needs a table, and points to `id` unless told. -/
def relation? (wire : WireField) : Except FieldError (Option Relation) :=
  if wire.relation then
    match wire.belongsTo.filter (!Text.isBlankText ·) with
    | some table => .ok (some ⟨table, wire.relatedField.getD "id"⟩)
    | none => .error (.missingTarget (wire.dbColumn.getD ""))
  else .ok none

/-- The field that the keys describe. -/
def toField (wire : WireField) : Except FieldError Field := do
  let relation ← wire.relation?
  return ⟨wire.dbColumn, wire.cast, wire.searchable.toSearchable, relation⟩

/-- The keys that describe a field. -/
def ofField (field : Field) : WireField where
  dbColumn := field.dbColumn
  cast := field.cast
  searchable := .ofSearchable field.searchable
  relation := field.isRelation
  belongsTo := field.relation.map Relation.belongsTo
  relatedField := field.relation.map Relation.relatedField

/-- A key that is left out when it has no value. -/
def optionalMember (name : String) : Option String → List (String × Json)
  | some text => [(name, .string text)]
  | none => []

/-- The object of the keys. -/
def toJson (wire : WireField) : Json :=
  .object ([("db_column", .ofOption .string wire.dbColumn), ("cast", .string wire.cast),
    ("searchable", wire.searchable.toJson), ("relation", .bool wire.relation)] ++
    optionalMember "belongs_to" wire.belongsTo ++
    optionalMember "related_field" wire.relatedField)

/-- The keys in their order. -/
def keys : List String :=
  ["db_column", "cast", "searchable", "relation", "belongs_to", "related_field"]

/-- Take up one key. -/
def take {ε : Type} (wire : WireField) (key : String) (document : Document) :
    Except (Refusal ε) WireField :=
  match key with
  | "db_column" => do
      return { wire with dbColumn := ← Decoder.optional Decoder.string document }
  | "cast" => do return { wire with cast := ← Decoder.string document }
  | "searchable" => do return { wire with searchable := ← WireSearchable.decode document }
  | "relation" => do return { wire with relation := ← Decoder.bool document }
  | "belongs_to" => do
      return { wire with belongsTo := ← Decoder.optional Decoder.string document }
  | _ => do return { wire with relatedField := ← Decoder.optional Decoder.string document }

/-- Take the keys of a field; every one may be left out. -/
def decode {ε : Type} : Decoder ε WireField :=
  Decoder.record keys [] blank take

end WireField

/-- Take a field from its wire form. -/
def Field.decode : Decoder FieldError Field := fun document => do
  let wire ← WireField.decode document
  wire.toField.mapError Refusal.cause

/-- The wire form of a field. -/
def Field.toJson (field : Field) : Json :=
  (WireField.ofField field).toJson

end FilterSql

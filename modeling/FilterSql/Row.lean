/-
Rows of a result.

A row names its entity and holds the values of its columns in order.  Names may repeat:
looking a column up takes the first of its name in any case, and the JSON form of a row
keeps the last of each name.
-/
import FilterSql.Value.Wire

namespace FilterSql

/-- A column of a row with its value, none for an absent one. -/
structure FieldValue where
  name : String
  value : Option Value

/-- A row of a result. -/
structure Row where
  entity : String
  fields : List FieldValue

namespace FieldValue

/-- The value in JSON, null for an absent one. -/
def toJson (field : FieldValue) : Json :=
  .ofOption Value.toJson field.value

/-- The wire form: name and value. -/
def toWire (field : FieldValue) : Json :=
  .object [("name", .string field.name), ("value", .ofOption Value.toWire field.value)]

/-- Take a column from its wire form. -/
def decode {ε : Type} (room : Nat) : Decoder ε FieldValue :=
  Decoder.fullRecord ["name", "value"] ["name"] ⟨"", none⟩ fun field name document =>
    if name = "name" then do
      return { field with name := ← Decoder.string document }
    else do
      return { field with value := ← Decoder.optional (Value.decode (room - 1)) document }

end FieldValue

namespace Row

/-- The first column of a name, in any case. -/
def get? (row : Row) (name : String) : Option FieldValue :=
  row.fields.find? fun field => Text.sameUpToCase field.name name

/-- The value of the first column of a name, null when there is none. -/
def valueOf (row : Row) (name : String) : Value :=
  ((row.get? name).bind FieldValue.value).getD .null

/-- The row as an object of its columns. -/
def toJson (row : Row) : Json :=
  .ofMembers (row.fields.map fun field => (field.name, field.toJson))

/-- The wire form: entity and columns. -/
def toWire (row : Row) : Json :=
  .object [("entity", .string row.entity),
    ("field_values", .ofList FieldValue.toWire row.fields)]

/-- Take a row from its wire form. -/
def decode {ε : Type} (room : Nat) : Decoder ε Row :=
  Decoder.record ["entity", "field_values"] ["entity", "field_values"] ⟨"", []⟩
    fun row name document =>
      if name = "entity" then do
        return { row with entity := ← Decoder.string document }
      else do
        return { row with fields := ← Decoder.items (FieldValue.decode (room - 2)) document }

end Row

end FilterSql

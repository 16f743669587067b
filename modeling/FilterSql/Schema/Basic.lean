/-
Models: a base table and its fields by name.
-/
import FilterSql.Schema.Field

namespace FilterSql

/-- The table of a model and the fields that it shows. -/
structure Schema where
  table : String
  fields : Dict Field

/-- Why a model is not taken. -/
inductive SchemaError
  | document (refusal : Refusal FieldError)
  | emptyTable

namespace Schema

/-- A model without fields. -/
def ofTable (table : String) : Schema :=
  ⟨table, .empty⟩

/-- The model with a field, in place of any other of its name. -/
def withField (schema : Schema) (name : String) (field : Field) : Schema :=
  { schema with fields := schema.fields.insert name field }

/-- The field of a name. -/
def field? (schema : Schema) (name : String) : Option Field :=
  schema.fields.find? name

/-- A model whose table is blank is refused. -/
def validate (schema : Schema) : Except SchemaError Unit :=
  if Text.isBlankText schema.table then .error .emptyTable else .ok ()

/-- Take a model from its wire form. -/
def decode : Decoder FieldError Schema :=
  Decoder.record ["table", "fields"] ["table"] (ofTable "") fun schema name document =>
    if name = "table" then do
      return { schema with table := ← Decoder.string document }
    else do
      return { schema with fields := ← Decoder.dict Field.decode document }

/-- Read and validate a model. -/
def ofDocument (text : DocumentText) : Except SchemaError Schema := do
  let schema ← (Decoder.decode decode text).mapError .document
  schema.validate
  return schema

end Schema

/-- The text of an error; a document of another shape has none of its own. -/
def SchemaError.message? : SchemaError → Option String
  | document .shape => none
  | document (.cause error) => some error.message
  | emptyTable => some "Schema table name is empty"

end FilterSql

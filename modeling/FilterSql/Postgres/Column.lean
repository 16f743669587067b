/-
Columns of a result decoded to values.

A column is read as a type that its own type agrees with.  Null, bytes that are no value
of the type, and types that are not supported all give no value.
-/
import FilterSql.Json.Document
import FilterSql.Postgres.Numeric
import FilterSql.Postgres.SqlType
import FilterSql.Row

namespace FilterSql.Postgres

/-- A column of a row: its name, its type, and its bytes unless it is null. -/
structure Column where
  name : String
  type : SqlType
  data : Option Bytes

/-- The text of bytes as JSON. -/
def readJson? (bytes : Bytes) : Option Json := do
  let text ← Bytes.toText? bytes
  (DocumentText.ofText text).toJson?

/-- The types whose columns can be read as a type. -/
def SqlType.readableFrom (type : SqlType) : List SqlType :=
  if type.isText then [.text, .varchar, .bpchar, .name, .citext]
  else if type = .json ∨ type = .jsonb then [.json, .jsonb]
  else [type]

/-- The value that the bytes of a column hold, by the column's own type. -/
def readBytes? (bytes : Bytes) : SqlType → Option Value
  | .int2 => (Bytes.toInt? 2 bytes).map fun n => .int (Int64.ofInt n)
  | .int4 => (Bytes.toInt? 4 bytes).map fun n => .int (Int64.ofInt n)
  | .int8 => (Bytes.toInt? 8 bytes).map fun n => .int (Int64.ofInt n)
  | .float4 => (Bytes.toNat? 4 bytes).map fun n => .float (Binary64.ofBinary32 (UInt32.ofNat n))
  | .float8 => (Bytes.toNat? 8 bytes).map fun n => .float ⟨UInt64.ofNat n⟩
  | .numeric => (Numeric.decode? bytes).map fun x => .float x.toDouble
  | .bool => (Bytes.toNat? 1 bytes).map fun n => .boolean (n != 0)
  | .text | .varchar | .bpchar | .name | .citext => (Bytes.toText? bytes).map .string
  | .json => (readJson? bytes).map .json
  | .jsonb =>
      match bytes with
      | 1 :: rest => (readJson? rest).map .json
      | _ => none
  | .date => do
      let days ← Bytes.toInt? 4 bytes
      (Date.ofDayNumber? days).map .date
  | .timestamp | .timestamptz => do
      let micros ← Bytes.toInt? 8 bytes
      (Timestamp.ofMicros? micros).map .timestamp
  | .time | .uuid | .bytea | .oid => none

namespace Column

/-- The value of a column read as the type of a name. -/
def valueAs? (column : Column) (typeName : String) : Option Value := do
  let type ← SqlType.byName.lookup typeName
  let bytes ← column.data
  if type.readableFrom.contains column.type then readBytes? bytes column.type else none

/-- The column with its value, read as its own type. -/
def toField (column : Column) : FieldValue :=
  ⟨column.name, column.valueAs? column.type.label⟩

end Column

/-- The row of an entity's columns. -/
def rowOfColumns (entity : String) (columns : List Column) : Row :=
  ⟨entity, columns.map Column.toField⟩

end FilterSql.Postgres

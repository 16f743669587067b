/-
Values on the wire.

A value is written as an object with the kind of the value over its content, null as the
bare name of its kind.  Dates and timestamps are texts there.
-/
import FilterSql.Calendar.Pattern
import FilterSql.Json.Decode
import FilterSql.Value

namespace FilterSql.Value

/-- The wire form of a value. -/
def toWire : Value → Json
  | int n => .object [("Int", .int n.toInt)]
  | float x => .object [("Float", .double x)]
  | string s => .object [("String", .string s)]
  | boolean b => .object [("Boolean", .bool b)]
  | date d => .object [("Date", .string d.toText)]
  | timestamp t => .object [("Timestamp", .string t.toIsoText)]
  | json j => .object [("Json", j)]
  | null => .string "Null"

/-- A text that is read as a whole by `read?`. -/
def decodeText {ε α : Type} (read? : List Char → Option α) : Decoder ε α := fun document => do
  let text ← Decoder.string document
  Decoder.ofOption (read? text.toList)

/-- The content of a value under the name of its kind; JSON may be nested `room` deep. -/
def decodeContent {ε : Type} (room : Nat) (kind : String) : Decoder ε Value := fun content =>
  match kind with
  | "Int" => (Decoder.int64 content).map int
  | "Float" => (Decoder.double content).map float
  | "String" => (Decoder.string content).map string
  | "Boolean" => (Decoder.bool content).map boolean
  | "Date" => (decodeText (Calendar.readDate? Calendar.wireDatePattern) content).map date
  | "Timestamp" =>
      (decodeText (Calendar.readTimestamp? Calendar.wireTimestampPattern) content).map timestamp
  | "Json" => (Decoder.ofOption (content.toJson? room)).map json
  | "Null" =>
      match content with
      | .null => .ok null
      | _ => .error .shape
  | _ => .error .shape

/-- Take a value from its wire form, `room` levels of nesting being left for it. -/
def decode {ε : Type} (room : Nat) : Decoder ε Value
  | .string "Null" => .ok null
  | .object [(some kind, content)] => decodeContent (room - 1) kind content
  | _ => .error .shape

end FilterSql.Value

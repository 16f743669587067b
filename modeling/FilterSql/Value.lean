/-
The values that a statement binds and a row holds.

A value has a plain text, a truth value where it can be read as one, a JSON form, and an
SQL literal, in which every text stands between single quotes.
-/
import FilterSql.Calendar.Timestamp
import FilterSql.Json.Basic
import FilterSql.Text.Basic
import FilterSql.Text.Lowercase

namespace FilterSql

/-- A value of a column or a parameter. -/
inductive Value
  | int (n : Int64)
  | float (x : Binary64)
  | string (s : String)
  | boolean (b : Bool)
  | date (d : Date)
  | timestamp (t : Timestamp)
  | json (j : Json)
  | null

namespace Value

instance : Inhabited Value := ⟨null⟩

/-- The text of a truth value. -/
def boolText (b : Bool) : String :=
  if b then "true" else "false"

/-- The plain text of a value; null has none, and neither has JSON that is no text. -/
def toText? : Value → Option String
  | int n => some (intText n.toInt)
  | float x => some x.toText
  | string s => some s
  | boolean b => some (boolText b)
  | date d => some d.toText
  | timestamp t => some t.toText
  | json j => j.string?
  | null => none

/-- The truth value that a word stands for, in any case. -/
def readBool? (s : String) : Option Bool :=
  let word := Text.lowered s
  if word = "true" ∨ word = "1" then some true
  else if word = "false" ∨ word = "0" then some false
  else none

/-- The truth value of a value: numbers are false when they are zero. -/
def toBool? : Value → Option Bool
  | int n => some (n != 0)
  | float x => some (!x.isZero)
  | string s => readBool? s
  | boolean b => some b
  | json j => j.bool?
  | date _ => none
  | timestamp _ => none
  | null => none

/-- The value in JSON; dates and timestamps are texts. -/
def toJson : Value → Json
  | int n => .int n.toInt
  | float x => .double x
  | string s => .string s
  | boolean b => .bool b
  | date d => .string d.toText
  | timestamp t => .string t.toText
  | json j => j
  | null => .null

/-- A text between single quotes, those inside it doubled. -/
def quotedText (s : String) : String :=
  Text.quoted '\'' s

/-- The value as an SQL literal. -/
def literal : Value → String
  | int n => intText n.toInt
  | float x => x.toText
  | string s => quotedText s
  | boolean b => boolText b
  | date d => quotedText d.toText
  | timestamp t => quotedText t.toText
  | json j => quotedText j.compact
  | null => "NULL"

end Value

end FilterSql

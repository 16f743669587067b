/-
JSON values and their compact text.

An object of a value read from text has its members sorted by name, one for each name;
an object that a type of this library is written as keeps the order of its fields.
-/
import FilterSql.Dict
import FilterSql.Number.Layout

namespace FilterSql

/-- A number of a JSON text: a whole one that 64 bits hold, or a double. -/
inductive JsonNumber
  | whole (n : Int)
  | double (x : Binary64)
deriving DecidableEq

/-- A JSON value. -/
inductive Json
  | null
  | bool (b : Bool)
  | number (n : JsonNumber)
  | string (s : String)
  | array (items : List Json)
  | object (members : List (String × Json))

namespace Json

instance : Inhabited Json := ⟨null⟩

/-- A whole number. -/
def int (n : Int) : Json := .number (.whole n)

/-- A natural number. -/
def nat (n : Nat) : Json := .number (.whole n)

/-- A double; one that is not finite has no number and is null. -/
def double (x : Binary64) : Json :=
  if x.isFinite then .number (.double x) else .null

/-- The value of `some`, null for `none`. -/
def ofOption {α : Type u} (f : α → Json) : Option α → Json
  | some a => f a
  | none => .null

/-- An array of the items written one by one. -/
def ofList {α : Type u} (f : α → Json) (items : List α) : Json :=
  .array (items.map f)

/-- A text, when the value is one. -/
def string? : Json → Option String
  | .string s => some s
  | _ => none

/-- A truth value, when the value is one. -/
def bool? : Json → Option Bool
  | .bool b => some b
  | _ => none

/-- One hexadecimal digit in lower case. -/
def hexDigit (n : Nat) : Char :=
  if n < 10 then Char.ofNat (0x30 + n) else Char.ofNat (0x57 + n)

/-- A character inside the quotes of a text. -/
def escapeChar (c : Char) : List Char :=
  if c = '"' then ['\\', '"']
  else if c = '\\' then ['\\', '\\']
  else if c = '\x08' then ['\\', 'b']
  else if c = '\t' then ['\\', 't']
  else if c = '\n' then ['\\', 'n']
  else if c = '\x0c' then ['\\', 'f']
  else if c = '\r' then ['\\', 'r']
  else if c.toNat < 0x20 then
    ['\\', 'u', '0', '0', hexDigit (c.toNat / 16), hexDigit (c.toNat % 16)]
  else [c]

/-- A text in quotes. -/
def quote (cs : List Char) : List Char :=
  '"' :: cs.flatMap escapeChar ++ ['"']

/-- The text of a number. -/
def numberChars : JsonNumber → List Char
  | .whole n => intChars n
  | .double x => NumberLayout.json.writeFinite x

mutual

/-- The text of a value, without blanks. -/
def chars : Json → List Char
  | .null => ['n', 'u', 'l', 'l']
  | .bool true => ['t', 'r', 'u', 'e']
  | .bool false => ['f', 'a', 'l', 's', 'e']
  | .number n => numberChars n
  | .string s => quote s.toList
  | .array items => '[' :: itemChars items ++ [']']
  | .object members => '\x7b' :: memberChars members ++ ['\x7d']

/-- Items with commas between. -/
def itemChars : List Json → List Char
  | [] => []
  | [item] => item.chars
  | item :: items => item.chars ++ ',' :: itemChars items

/-- Members with commas between. -/
def memberChars : List (String × Json) → List Char
  | [] => []
  | [(name, value)] => quote name.toList ++ ':' :: value.chars
  | (name, value) :: members =>
      quote name.toList ++ ':' :: value.chars ++ ',' :: memberChars members

end

/-- The compact text of a value. -/
def compact (json : Json) : String :=
  String.ofList json.chars

/-- An object with its members sorted by name, the last of each name kept. -/
def ofMembers (members : List (String × Json)) : Json :=
  .object (members.foldl (fun sorted (name, value) => insertEntry name value sorted) [])

end Json

end FilterSql

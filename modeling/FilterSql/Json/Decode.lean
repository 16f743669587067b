/-
Typed values decoded from documents.

A decoder goes through a document from front to back and stops at the first thing it
cannot take.  A record may be written as an object, where unknown keys are passed over
and a known key may stand once, or as an array of its fields in their order.
-/
import FilterSql.Json.Document

namespace FilterSql

/-- Why a document is refused: it has another shape, or what it says is wrong. -/
inductive Refusal (ε : Type)
  | shape
  | cause (error : ε)
deriving Repr

/-- A way to take a value from a document. -/
abbrev Decoder (ε α : Type) := Document → Except (Refusal ε) α

namespace Decoder

variable {ε α : Type}

/-- What an optional reading gives, a refusal for none. -/
def ofOption : Option α → Except (Refusal ε) α
  | some a => .ok a
  | none => .error .shape

/-- A text. -/
def string : Decoder ε String
  | .string s => .ok s
  | _ => .error .shape

/-- A truth value. -/
def bool : Decoder ε Bool
  | .bool b => .ok b
  | _ => .error .shape

/-- A whole number between two bounds; no number with a point. -/
def bounded (low high : Int) : Decoder ε Int
  | .number (.whole n) => if low ≤ n ∧ n ≤ high then .ok n else .error .shape
  | _ => .error .shape

/-- A natural number of 64 bits. -/
def uint64 (document : Document) : Except (Refusal ε) UInt64 := do
  let n ← bounded 0 (UInt64.size - 1) document
  return UInt64.ofNat n.toNat

/-- An integer of 64 bits. -/
def int64 (document : Document) : Except (Refusal ε) Int64 := do
  let n ← bounded Int64.minValue.toInt Int64.maxValue.toInt document
  return Int64.ofInt n

/-- A double; a whole number becomes the nearest one. -/
def double : Decoder ε Binary64
  | .number (.whole n) => .ok (Binary64.ofInt n)
  | .number (.double x) => .ok x
  | _ => .error .shape

/-- Null for none. -/
def optional (decode : Decoder ε α) : Decoder ε (Option α)
  | .null => .ok none
  | document => (decode document).map some

/-- The items of an array, each decoded. -/
def items (decode : Decoder ε α) : Decoder ε (List α)
  | .array documents => documents.mapM decode
  | _ => .error .shape

/-- The entries of an object by name; of repeated ones the last is kept. -/
def dict (decode : Decoder ε α) : Decoder ε (Dict α)
  | .object entries =>
      entries.foldlM (fun found (key, document) => do
        let name ← ofOption key
        let value ← decode document
        return found.insert name value) Dict.empty
  | _ => .error .shape

/-- One of a few names, also written as an object with the name over null. -/
def oneOf (names : List (String × α)) : Decoder ε α
  | .string name => ofOption (valueNamed? name names)
  | .object [(some name, .null)] => ofOption (valueNamed? name names)
  | _ => .error .shape

/-- What a record's decoder meets, in order. -/
inductive Visit
  /-- The value of a field. -/
  | field (name : String) (value : Document)
  /-- The value under a key that is no field. -/
  | unknown (value : Document)
  /-- A key that is no text, a field that came before, or an item too many. -/
  | refused

/-- The visits of an object's entries; `left` are the fields that have not been met. -/
def visitEntries (names left : List String) : List (Option String × Document) → List Visit
  | [] => []
  | (none, _) :: _ => [.refused]
  | (some key, value) :: entries =>
      if names.contains key then
        if left.contains key then .field key value :: visitEntries names (left.erase key) entries
        else [.refused]
      else .unknown value :: visitEntries names left entries

/-- The visits of an array's items, which are the fields in their order. -/
def visitItems : List String → List Document → List Visit
  | _, [] => []
  | [], _ :: _ => [.refused]
  | name :: names, item :: items => .field name item :: visitItems names items

/-- The visits of a record's document. -/
def visits? (names : List String) : Document → Option (List Visit)
  | .object entries => some (visitEntries names names entries)
  | .array items => some (visitItems names items)
  | _ => none

/-- The names of the fields that are visited. -/
def fieldNames (visits : List Visit) : List String :=
  visits.filterMap fun
    | .field name _ => some name
    | _ => none

/-- Go through the visits: a field is taken up by `take`, what is unknown only has to be
well-formed. -/
def follow (take : α → String → Decoder ε α) (start : α) (visits : List Visit) :
    Except (Refusal ε) α :=
  visits.foldlM (fun state visit =>
    match visit with
    | .field name value => take state name value
    | .unknown value => if value.isWellFormed then .ok state else .error .shape
    | .refused => .error .shape) start

/-- A record: its fields in their order, those that must be there, the record before any
field has been met, and how a field is taken up. -/
def record (names required : List String) (start : α) (take : α → String → Decoder ε α) :
    Decoder ε α := fun document => do
  let visits ← ofOption (visits? names document)
  let found ← follow take start visits
  if required.all (fieldNames visits).contains then return found else .error .shape

/-- A record that may lack fields as an object, but as an array has them all. -/
def fullRecord (names required : List String) (start : α) (take : α → String → Decoder ε α) :
    Decoder ε α
  | .array documents =>
      if documents.length = names.length then record names required start take (.array documents)
      else .error .shape
  | document => record names required start take document

/-- Decode a whole text; after the document only blanks may follow. -/
def decode (decoder : Decoder ε α) (text : DocumentText) : Except (Refusal ε) α := do
  let value ← decoder text.document
  if text.endsThere then return value else .error .shape

end Decoder

end FilterSql

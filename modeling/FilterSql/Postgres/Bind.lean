/-
Values bound to placeholders.

The database tells the type of each placeholder, and a value is encoded as that type: an
integer in its width, a text as the number that it writes, a date as the midnight that it
starts with.  A value that the type has no place for is refused, never changed.
-/
import FilterSql.Number.Reader
import FilterSql.Postgres.Numeric
import FilterSql.Postgres.SqlType
import FilterSql.Value

namespace FilterSql.Postgres

/-- Why a value cannot be bound. -/
inductive BindError
  | wrongType
  | integerOutOfRange
  | noInteger
  | noNumber
  | noNumeric (x : Binary64)
  | notWhole (x : Binary64) (type : SqlType)
  | notBoolean (text : String)
deriving DecidableEq

/-- The text of an error, where there is more to say than its kind. -/
def BindError.message? : BindError → Option String
  | noNumeric x => some (x.toText ++ " does not fit a numeric")
  | notWhole x type =>
      some (x.toText ++ " is not a whole number, cannot bind it as " ++ type.label)
  | notBoolean text => some ("'" ++ text ++ "' is not a boolean")
  | _ => none

/-- The bytes of a single precision number. -/
def singleBytes (bits : UInt32) : Bytes :=
  Bytes.ofNat 4 bits.toNat

/-- The bytes of a double. -/
def doubleBytes (x : Binary64) : Bytes :=
  Bytes.ofNat 8 x.bits.toNat

/-- The single precision number nearest to an integer. -/
def singleOfInt (n : Int) : UInt32 :=
  let format := BinaryFormat.binary32
  UInt32.ofNat (format.nearest n.natAbs 1 + if n < 0 then format.signWeight else 0)

/-- An integer in a number of bytes, refused where they cannot hold it. -/
def bindInWidth (n : Int) (width : Nat) : Except BindError Bytes :=
  let half : Int := ((Nat.pow 256 width / 2 : Nat) : Int)
  if -half ≤ n ∧ n < half then .ok (Bytes.ofInt width n) else .error .integerOutOfRange

/-- An integer as a type. -/
def bindInt (n : Int64) (type : SqlType) : Except BindError Bytes :=
  match type.integerWidth?, type with
  | some width, _ => bindInWidth n.toInt width
  | none, .float4 => .ok (singleBytes (singleOfInt n.toInt))
  | none, .float8 => .ok (doubleBytes (Binary64.ofInt n.toInt))
  | none, .numeric => .ok (Numeric.ofInt n.toInt).encode
  | none, _ => if type.isText then .ok (Bytes.ofText (intText n.toInt)) else .error .wrongType

/-- A double as a type; one that is not whole is no integer. -/
def bindFloat (x : Binary64) (type : SqlType) : Except BindError Bytes :=
  match type.integerWidth?, type with
  | some _, _ => if x.isWhole then bindInt x.toInt64 type else .error (.notWhole x type)
  | none, .float4 => .ok (singleBytes x.toBinary32)
  | none, .float8 => .ok (doubleBytes x)
  | none, .numeric =>
      match Numeric.ofDouble? x with
      | some numeric => .ok numeric.encode
      | none => .error (.noNumeric x)
  | none, _ => if type.isText then .ok (Bytes.ofText x.toText) else .error .wrongType

/-- A truth value as one byte. -/
def boolByte (b : Bool) : Bytes :=
  [if b then 1 else 0]

/-- A text as a type, read as what the type holds. -/
def bindText (s : String) (type : SqlType) : Except BindError Bytes :=
  let cs := Text.trim s.toList
  if type.isText then .ok (Bytes.ofText s)
  else if type.integerWidth?.isSome then
    match Number.readInt64? cs with
    | some n => bindInt n type
    | none => .error .noInteger
  else if type.isNumber then
    match Number.readBinary64? cs with
    | some x => bindFloat x type
    | none => .error .noNumber
  else if type = .bool then
    match Value.readBool? s with
    | some b => .ok (boolByte b)
    | none => .error (.notBoolean s)
  else .error .wrongType

/-- A truth value as a type. -/
def bindBool (b : Bool) (type : SqlType) : Except BindError Bytes :=
  if type.isText then .ok (Bytes.ofText (Value.boolText b))
  else if type = .bool then .ok (boolByte b)
  else .error .wrongType

/-- JSON as a type; the binary form has a version before the text. -/
def bindJson (j : Json) : SqlType → Except BindError Bytes
  | .json => .ok (Bytes.ofText j.compact)
  | .jsonb => .ok (1 :: Bytes.ofText j.compact)
  | _ => .error .wrongType

/-- The days from the origin to a date. -/
def dateBytes (date : Date) : Bytes :=
  Bytes.ofInt 4 date.dayNumber

/-- The microseconds from the origin to a timestamp. -/
def timestampBytes (stamp : Timestamp) : Bytes :=
  Bytes.ofInt 8 stamp.microsSinceOrigin

/-- A date as a type. -/
def bindDate (date : Date) (type : SqlType) : Except BindError Bytes :=
  match type with
  | .date => .ok (dateBytes date)
  | .timestamp => .ok (timestampBytes ⟨date, .midnight⟩)
  | .timestamptz => .ok (timestampBytes ⟨date, .midnight⟩)
  | _ => if type.isText then .ok (Bytes.ofText date.toText) else .error .wrongType

/-- A timestamp as a type. -/
def bindTimestamp (stamp : Timestamp) (type : SqlType) : Except BindError Bytes :=
  match type with
  | .date => .ok (dateBytes stamp.date)
  | .timestamp => .ok (timestampBytes stamp)
  | .timestamptz => .ok (timestampBytes stamp)
  | _ => if type.isText then .ok (Bytes.ofText stamp.toText) else .error .wrongType

/-- A value as a type; null has no bytes and goes with every type. -/
def bind (value : Value) (type : SqlType) : Except BindError (Option Bytes) :=
  match value with
  | .null => .ok none
  | .int n => (bindInt n type).map some
  | .float x => (bindFloat x type).map some
  | .string s => (bindText s type).map some
  | .boolean b => (bindBool b type).map some
  | .json j => (bindJson j type).map some
  | .date d => (bindDate d type).map some
  | .timestamp t => (bindTimestamp t type).map some

end FilterSql.Postgres

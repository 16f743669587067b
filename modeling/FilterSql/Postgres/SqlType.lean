/-
The column types of PostgreSQL.
-/

namespace FilterSql.Postgres

/-- A type of a column or a placeholder. -/
inductive SqlType
  | int2
  | int4
  | int8
  | float4
  | float8
  | numeric
  | bool
  | text
  | varchar
  | bpchar
  | name
  | citext
  | json
  | jsonb
  | date
  | timestamp
  | timestamptz
  | time
  | uuid
  | bytea
  | oid
deriving DecidableEq, Repr

namespace SqlType

/-- The types by their names. -/
def byName : List (String × SqlType) :=
  [("int2", int2), ("int4", int4), ("int8", int8), ("float4", float4), ("float8", float8),
    ("numeric", numeric), ("bool", bool), ("text", text), ("varchar", varchar),
    ("bpchar", bpchar), ("name", name), ("citext", citext), ("json", json), ("jsonb", jsonb),
    ("date", date), ("timestamp", timestamp), ("timestamptz", timestamptz), ("time", time),
    ("uuid", uuid), ("bytea", bytea), ("oid", oid)]

/-- The name of a type. -/
def label (type : SqlType) : String :=
  ((byName.find? fun entry => entry.2 == type).map Prod.fst).getD ""

/-- The types that hold plain text. -/
def isText : SqlType → Bool
  | text | varchar | bpchar | name | citext => true
  | _ => false

/-- How many bytes an integer type has. -/
def integerWidth? : SqlType → Option Nat
  | int2 => some 2
  | int4 => some 4
  | int8 => some 8
  | _ => none

/-- The integers, doubles and exact numbers. -/
def isNumber : SqlType → Bool
  | int2 | int4 | int8 | float4 | float8 | numeric => true
  | _ => false

end SqlType

end FilterSql.Postgres

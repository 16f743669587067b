/-
Settings of queries.
-/
import FilterSql.Filter.Evaluation
import FilterSql.Json.Decode

namespace FilterSql

namespace JoinKind

/-- The name of a kind of join. -/
def name : JoinKind → String
  | inner => "inner"
  | left => "left"
  | right => "right"
  | full => "full"

/-- The kinds of joins by name. -/
def byName : List (String × JoinKind) :=
  [("inner", inner), ("left", left), ("right", right), ("full", full)]

end JoinKind

/-- Settings of queries; every one has a default. -/
structure Config where
  /-- The filter key that asks for a global search. -/
  searchKey : String
  /-- The rows of a page when a request asks for none. -/
  defaultLimit : UInt64
  /-- The most rows of a page. -/
  maxLimit : UInt64
  /-- Filter values of more bytes are passed over. -/
  maxFilterLength : UInt64
  /-- How related tables are joined. -/
  relationJoin : JoinKind
deriving DecidableEq, Repr

namespace Config

/-- The settings when nothing is said. -/
def standard : Config where
  searchKey := "search"
  defaultLimit := 15
  maxLimit := 1000
  maxFilterLength := 2048
  relationJoin := .inner

instance : Inhabited Config := ⟨standard⟩

/-- The names of the settings, in order. -/
def keys : List String :=
  ["search_key", "default_limit", "max_limit", "max_filter_length", "relation_join"]

/-- Take up one setting. -/
def take {ε : Type} (config : Config) (key : String) (document : Document) :
    Except (Refusal ε) Config :=
  match key with
  | "search_key" => do return { config with searchKey := ← Decoder.string document }
  | "default_limit" => do return { config with defaultLimit := ← Decoder.uint64 document }
  | "max_limit" => do return { config with maxLimit := ← Decoder.uint64 document }
  | "max_filter_length" => do
      return { config with maxFilterLength := ← Decoder.uint64 document }
  | _ => do
      return { config with relationJoin := ← Decoder.oneOf JoinKind.byName document }

/-- Take settings from their wire form. -/
def decode {ε : Type} : Decoder ε Config :=
  Decoder.record keys [] standard take

/-- The wire form of settings. -/
def toJson (config : Config) : Json :=
  .object [("search_key", .string config.searchKey),
    ("default_limit", .nat config.defaultLimit.toNat),
    ("max_limit", .nat config.maxLimit.toNat),
    ("max_filter_length", .nat config.maxFilterLength.toNat),
    ("relation_join", .string config.relationJoin.name)]

/-- The scope of a table under these settings. -/
def scope (config : Config) (table : String) : Scope :=
  ⟨table, config.relationJoin⟩

end Config

end FilterSql

/-
Requests: filters, sorting, a page, and the columns to show.

A filter key may have one value, several, or none.  Adding a value to a key keeps the
values that were there, in their order.
-/
import FilterSql.Query.Config

namespace FilterSql

/-- The values of a filter key. -/
inductive FilterValue
  | single (value : String)
  | many (values : List String)
  | null
deriving DecidableEq, Repr

namespace FilterValue

/-- The values in order. -/
def values : FilterValue → List String
  | single value => [value]
  | many values => values
  | null => []

/-- The values with one more. -/
def push (value : String) : FilterValue → FilterValue
  | single first => many [first, value]
  | many values => many (values ++ [value])
  | null => single value

@[simp] theorem values_push (value : String) (start : FilterValue) :
    (start.push value).values = start.values ++ [value] := by
  cases start <;> rfl

/-- Take the values of a key: a text, an array of texts, or null. -/
def decode {ε : Type} : Decoder ε FilterValue
  | .string value => .ok (single value)
  | .null => .ok null
  | document => (Decoder.items Decoder.string document).map many

/-- The wire form of the values of a key. -/
def toJson : FilterValue → Json
  | single value => .string value
  | many values => .ofList .string values
  | null => .null

end FilterValue

/-- The order of a sorted column. -/
inductive SortOrder
  | ascending
  | descending
deriving DecidableEq, Repr

namespace SortOrder

/-- Descending for `desc` in any case, ascending for all else. -/
def ofText (raw : String) : SortOrder :=
  if Text.sameUpToCase (Text.trimmed raw) "desc" then descending else ascending

/-- The name of an order. -/
def name : SortOrder → String
  | ascending => "asc"
  | descending => "desc"

/-- The orders by name. -/
def byName : List (String × SortOrder) :=
  [("asc", ascending), ("desc", descending)]

/-- The direction in a statement. -/
def direction : SortOrder → Direction
  | ascending => .ascending
  | descending => .descending

end SortOrder

/-- A column to sort by, and its order. -/
structure SortSpec where
  column : String
  order : SortOrder
deriving DecidableEq, Repr

namespace SortSpec

/-- The column and order in a text: `-name`, `name:desc` or `name`. -/
def split : List Char → List Char × SortOrder
  | '-' :: column => (column, .descending)
  | cs =>
      match Text.cut? ':' cs with
      | some (column, order) => (column, .ofText (String.ofList order))
      | none => (cs, .ascending)

/-- The sorting that a text asks for, or the trimmed text when it names no column. -/
def ofText (raw : String) : Except String SortSpec :=
  let trimmed := Text.trim raw.toList
  let (column, order) := split trimmed
  let column := Text.trim column
  if column.isEmpty then .error (String.ofList trimmed) else .ok ⟨String.ofList column, order⟩

/-- What to say about a text that asks for no sorting. -/
def invalid (text : String) : String :=
  s!"Invalid sort: '{text}'"

/-- Take a sorting from its wire form. -/
def decode {ε : Type} : Decoder ε SortSpec :=
  Decoder.record ["column", "order"] ["column"] ⟨"", .ascending⟩ fun spec key document =>
    if key = "column" then do return { spec with column := ← Decoder.string document }
    else do return { spec with order := ← Decoder.oneOf SortOrder.byName document }

/-- The wire form of a sorting. -/
def toJson (spec : SortSpec) : Json :=
  .object [("column", .string spec.column), ("order", .string spec.order.name)]

end SortSpec

/-- A page of the result and how many rows it has. -/
structure Pagination where
  page : UInt64
  limit : UInt64
deriving DecidableEq, Repr

namespace Pagination

/-- The rows of a page: the default for zero, and never more than the settings allow. -/
def resolvedLimit (pagination : Pagination) (config : Config) : UInt64 :=
  let asked := if pagination.limit = 0 then config.defaultLimit else pagination.limit
  max 1 (min asked (max 1 config.maxLimit))

/-- The rows before a page, as far as 64 bits count; pages start at one. -/
def resolvedOffset (pagination : Pagination) (config : Config) : UInt64 :=
  let before := pagination.page.toNat - 1
  UInt64.ofNat (min (before * (pagination.resolvedLimit config).toNat) (UInt64.size - 1))

/-- Take a page from its wire form. -/
def decode {ε : Type} : Decoder ε Pagination :=
  Decoder.record ["page", "limit"] ["page", "limit"] ⟨0, 0⟩ fun pagination key document =>
    if key = "page" then do return { pagination with page := ← Decoder.uint64 document }
    else do return { pagination with limit := ← Decoder.uint64 document }

/-- The wire form of a page. -/
def toJson (pagination : Pagination) : Json :=
  .object [("page", .nat pagination.page.toNat), ("limit", .nat pagination.limit.toNat)]

end Pagination

/-- A request for rows. -/
structure Request where
  filters : Dict FilterValue
  sort : List SortSpec
  pagination : Option Pagination
  /-- The columns to show; all of the table when nothing is said. -/
  fields : Option (List String)
  /-- The fields that may be filtered on; all of the model when nothing is said. -/
  filterable : Option (List String)

namespace Request

/-- A request that asks for nothing in particular. -/
def empty : Request :=
  ⟨.empty, [], none, none, none⟩

instance : Inhabited Request := ⟨empty⟩

/-- The request with one more value of a filter key. -/
def addFilter (request : Request) (key value : String) : Request :=
  let values :=
    match request.filters.find? key with
    | some before => before.push value
    | none => .single value
  { request with filters := request.filters.insert key values }

/-- The request with one more column to sort by. -/
def addSort (request : Request) (spec : SortSpec) : Request :=
  { request with sort := request.sort ++ [spec] }

/-- The request for a page. -/
def withPage (request : Request) (page limit : UInt64) : Request :=
  { request with pagination := some ⟨page, limit⟩ }

/-- The request for some columns. -/
def withFields (request : Request) (fields : List String) : Request :=
  { request with fields := some fields }

/-- The request with these fields alone to filter on. -/
def withFilterable (request : Request) (fields : List String) : Request :=
  { request with filterable := some fields }

/-- The names of the parts, in order. -/
def keys : List String :=
  ["filters", "sort", "pagination", "fields", "filterable"]

/-- Take up one part. -/
def take {ε : Type} (request : Request) (key : String) (document : Document) :
    Except (Refusal ε) Request :=
  match key with
  | "filters" => do
      return { request with filters := ← Decoder.dict FilterValue.decode document }
  | "sort" => do return { request with sort := ← Decoder.items SortSpec.decode document }
  | "pagination" => do
      return { request with pagination := ← Decoder.optional Pagination.decode document }
  | "fields" => do
      return { request with
        fields := ← Decoder.optional (Decoder.items Decoder.string) document }
  | _ => do
      return { request with
        filterable := ← Decoder.optional (Decoder.items Decoder.string) document }

/-- Take a request from its wire form. -/
def decode {ε : Type} : Decoder ε Request :=
  Decoder.record keys [] empty take

/-- The wire form of a request. -/
def toJson (request : Request) : Json :=
  .object [
    ("filters", .object (request.filters.entries.map fun (key, value) => (key, value.toJson))),
    ("sort", .ofList SortSpec.toJson request.sort),
    ("pagination", .ofOption Pagination.toJson request.pagination),
    ("fields", .ofOption (.ofList .string) request.fields),
    ("filterable", .ofOption (.ofList .string) request.filterable)]

end Request

end FilterSql

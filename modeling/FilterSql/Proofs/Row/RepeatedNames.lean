/-
Columns of one name in a row.

A row keeps its columns as they come, and names may repeat or differ only in case.  Looking a
column up gives the first one of its name in any case, and the JSON form keeps the last one of
exactly this name.  So every column can be seen on both ways exactly when the columns of one name,
in any case, have one value.
-/
import FilterSql.Postgres.Column

namespace FilterSql

section Entries

variable {α : Type}

theorem valueNamed?_append (name : String) (first second : List (String × α)) :
    valueNamed? name (first ++ second) =
      (valueNamed? name first).or (valueNamed? name second) := by
  rw [valueNamed?, List.find?_append, Option.map_or]
  rfl

theorem valueNamed?_insertEntry (name other : String) (value : α)
    (entries : List (String × α)) :
    valueNamed? name (insertEntry other value entries) =
      (valueNamed? name [(other, value)]).or (valueNamed? name entries) := by
  by_cases hname : name = other
  · subst hname
    rw [valueNamed?_insertEntry_self]
    simp [valueNamed?]
  · rw [valueNamed?_insertEntry_of_ne hname]
    simp [valueNamed?, Ne.symm hname]

/-- Of the entries that are inserted one after another the last one of a name stays. -/
theorem valueNamed?_foldl_insertEntry (name : String) (entries start : List (String × α)) :
    valueNamed? name
        (entries.foldl (fun sorted (other, value) => insertEntry other value sorted) start) =
      (valueNamed? name entries.reverse).or (valueNamed? name start) := by
  induction entries generalizing start with
  | nil => rfl
  | cons entry entries ih =>
      rw [List.foldl_cons, ih, valueNamed?_insertEntry, List.reverse_cons, valueNamed?_append,
        Option.or_assoc]

end Entries

/-- The value of an object under a name. -/
def Json.member? : Json → String → Option Json
  | .object members, name => valueNamed? name members
  | _, _ => none

theorem Json.member?_ofMembers (members : List (String × Json)) (name : String) :
    (ofMembers members).member? name = valueNamed? name members.reverse := by
  rw [ofMembers, member?, valueNamed?_foldl_insertEntry]
  exact Option.or_none

namespace Row

/-- The last column of exactly a name. -/
def last? (row : Row) (name : String) : Option FieldValue :=
  row.fields.reverse.find? fun field => field.name == name

/-- The JSON form of a row has every column under its name, and looking it up gives the same. -/
def ShowsColumns (row : Row) : Prop :=
  ∀ field ∈ row.fields, row.toJson.member? field.name = some field.toJson ∧
    (row.valueOf field.name).toJson = field.toJson

theorem member?_toJson (row : Row) (name : String) :
    row.toJson.member? name = (row.last? name).map FieldValue.toJson := by
  rw [toJson, Json.member?_ofMembers, ← List.map_reverse, valueNamed?, List.find?_map,
    Option.map_map]
  rfl

theorem toJson_valueOf {row : Row} {name : String} {first : FieldValue}
    (hfirst : row.get? name = some first) : (row.valueOf name).toJson = first.toJson := by
  rw [valueOf, hfirst, Option.bind_some, FieldValue.toJson]
  cases first.value <;> rfl

theorem get?_congr (row : Row) {name other : String}
    (hsame : Text.sameUpToCase name other = true) : row.get? name = row.get? other := by
  have hlower : Text.asciiLower name.toList = Text.asciiLower other.toList := by
    simpa [Text.sameUpToCase] using hsame
  simp only [get?, Text.sameUpToCase, hlower]

section Column

variable {row : Row} {field : FieldValue} (hfield : field ∈ row.fields)
include hfield

theorem exists_first : ∃ first ∈ row.fields, row.get? field.name = some first ∧
    Text.sameUpToCase first.name field.name = true := by
  cases hfirst : row.get? field.name with
  | none =>
      have hother := List.find?_eq_none.mp hfirst field hfield
      simp [Text.sameUpToCase] at hother
  | some first =>
      refine ⟨first, List.mem_of_find?_eq_some hfirst, rfl, ?_⟩
      have hcase := List.find?_some hfirst
      exact hcase

theorem exists_last : ∃ last ∈ row.fields, row.last? field.name = some last ∧
    last.name = field.name := by
  cases hlast : row.last? field.name with
  | none =>
      have hother := List.find?_eq_none.mp hlast field (List.mem_reverse.mpr hfield)
      simp at hother
  | some last =>
      refine ⟨last, List.mem_reverse.mp (List.mem_of_find?_eq_some hlast), rfl, ?_⟩
      simpa using List.find?_some hlast

end Column

theorem sameUpToCase_of_eq {name other : String} (hsame : name = other) :
    Text.sameUpToCase name other = true := by
  simp [Text.sameUpToCase, hsame]

theorem isSome_member?_toJson_iff {row : Row} {name : String} :
    (row.toJson.member? name).isSome = true ↔ ∃ field ∈ row.fields, field.name = name := by
  simp [member?_toJson, last?]

/-- The JSON form of a row has the names of its columns, and under a name the value of the last
column of exactly this name; looking it up gives the value of the first column of the name in any
case.  The two are the value of every column exactly when columns of one name, in any case, have
one value. -/
theorem showsColumns_iff (row : Row) :
    (∀ name, (row.toJson.member? name).isSome = true ↔ ∃ field ∈ row.fields, field.name = name) ∧
    (∀ field ∈ row.fields, ∃ first last,
      row.get? field.name = some first ∧ row.last? field.name = some last ∧
        (row.valueOf field.name).toJson = first.toJson ∧
        row.toJson.member? field.name = some last.toJson) ∧
    (row.ShowsColumns ↔ ∀ first ∈ row.fields, ∀ second ∈ row.fields,
      Text.sameUpToCase first.name second.name = true → first.toJson = second.toJson) := by
  have hcolumns : ∀ field ∈ row.fields, ∃ first last,
      row.get? field.name = some first ∧ row.last? field.name = some last ∧
        (row.valueOf field.name).toJson = first.toJson ∧
        row.toJson.member? field.name = some last.toJson := by
    intro field hfield
    obtain ⟨first, -, hfirst, -⟩ := exists_first hfield
    obtain ⟨last, -, hlast, -⟩ := exists_last hfield
    refine ⟨first, last, hfirst, hlast, toJson_valueOf hfirst, ?_⟩
    rw [member?_toJson, hlast, Option.map_some]
  refine ⟨fun name => isSome_member?_toJson_iff, hcolumns, ?_, ?_⟩
  · intro hshows first hfirst second hsecond hsame
    calc first.toJson = (row.valueOf first.name).toJson := (hshows first hfirst).2.symm
      _ = (row.valueOf second.name).toJson := by rw [valueOf, valueOf, get?_congr row hsame]
      _ = second.toJson := (hshows second hsecond).2
  · intro hsame field hfield
    obtain ⟨first, hmem, hfirst, hcase⟩ := exists_first hfield
    obtain ⟨last, hmemLast, hlast, hname⟩ := exists_last hfield
    constructor
    · rw [member?_toJson, hlast, Option.map_some,
        hsame last hmemLast field hfield (sameUpToCase_of_eq hname)]
    · rw [toJson_valueOf hfirst, hsame first hmem field hfield hcase]

end Row

namespace RepeatedNames

/-- A user with an address and no date of deletion. -/
def user : Row :=
  ⟨"users", [⟨"id", some (.int 1)⟩, ⟨"Email", some (.string "a@b.c")⟩, ⟨"deleted_at", none⟩]⟩

/-- The columns of a user have names of their own, so each of them can be seen. -/
theorem showsColumns_user : user.ShowsColumns ∧
    user.toJson.member? "Email" = some (.string "a@b.c") ∧
    (user.valueOf "Email").toJson = .string "a@b.c" := by
  obtain ⟨-, -, hiff⟩ := user.showsColumns_iff
  have hshows : user.ShowsColumns := by
    rw [hiff]
    intro first hfirst second hsecond hsame
    simp only [user, List.mem_cons, List.not_mem_nil, or_false] at hfirst hsecond
    obtain rfl | rfl | rfl := hfirst <;> obtain rfl | rfl | rfl := hsecond <;>
      first | rfl | exact absurd hsame (by decide)
  have hemail : ⟨"Email", some (.string "a@b.c")⟩ ∈ user.fields := by
    simp [user]
  exact ⟨hshows, hshows _ hemail⟩

/-- What a query for the names of a user and of the company that is joined to it gives. -/
def joined : Row :=
  Postgres.rowOfColumns "users"
    [⟨"name", .text, some (.ofText "Ann")⟩, ⟨"name", .text, some (.ofText "Acme")⟩]

/-- Two columns whose names differ in case. -/
def cased : Row :=
  ⟨"users", [⟨"id", some (.int 1)⟩, ⟨"ID", some (.int 2)⟩]⟩

/-- Of two columns of one name the JSON form has the second, and looking the name up gives the
first; of two names that differ in case, looking either up gives the first. -/
theorem not_showsColumns :
    (joined.toJson.member? "name" = some (.string "Acme") ∧
      (joined.valueOf "name").toJson = .string "Ann" ∧ ¬ joined.ShowsColumns) ∧
    (cased.toJson.member? "ID" = some (.int 2) ∧
      (cased.valueOf "ID").toJson = .int 1 ∧ ¬ cased.ShowsColumns) := by
  refine ⟨⟨rfl, rfl, ?_⟩, rfl, rfl, ?_⟩
  · intro hshows
    have hname : some (Json.string "Acme") = some (.string "Ann") :=
      (hshows ⟨"name", some (.string "Ann")⟩ List.mem_cons_self).1
    simp at hname
  · intro hshows
    have hid : Json.int 1 = .int 2 :=
      (hshows ⟨"ID", some (.int 2)⟩ (List.mem_cons_of_mem _ List.mem_cons_self)).2
    cases hid

end RepeatedNames

end FilterSql

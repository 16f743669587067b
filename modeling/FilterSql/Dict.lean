/-
Entries sorted by name, one for each name.

Names are compared by code point, which is also the order of their UTF-8 bytes.  Two
dictionaries with the same entries are equal, whatever the order of the insertions.
-/

namespace FilterSql

/-- Put an entry into its place among sorted ones, in place of one with the same name. -/
def insertEntry {α : Type u} (name : String) (value : α) :
    List (String × α) → List (String × α)
  | [] => [(name, value)]
  | entry :: entries =>
      if name < entry.1 then (name, value) :: entry :: entries
      else if name = entry.1 then (name, value) :: entries
      else entry :: insertEntry name value entries

/-- The value of the first entry with a name. -/
def valueNamed? {α : Type u} (name : String) (entries : List (String × α)) : Option α :=
  (entries.find? fun entry => entry.1 == name).map Prod.snd

theorem mem_of_valueNamed? {α : Type u} {name : String} {value : α}
    {entries : List (String × α)} (hvalue : valueNamed? name entries = some value) :
    (name, value) ∈ entries := by
  obtain ⟨⟨found, _⟩, hfound, rfl⟩ := Option.map_eq_some_iff.mp hvalue
  have hname : found = name := by simpa using List.find?_some hfound
  subst hname
  exact List.mem_of_find?_eq_some hfound

/-- Strictly increasing names. -/
def SortedByName {α : Type u} (entries : List (String × α)) : Prop :=
  entries.Pairwise fun first second => first.1 < second.1

theorem mem_insertEntry {α : Type u} {name : String} {value : α} {entry : String × α}
    {entries : List (String × α)} (h : entry ∈ insertEntry name value entries) :
    entry = (name, value) ∨ entry ∈ entries := by
  induction entries with
  | nil => simpa [insertEntry] using h
  | cons head tail ih =>
      rw [insertEntry] at h
      split at h
      · simpa using h
      · split at h
        · simp only [List.mem_cons] at h ⊢
          exact h.imp id Or.inr
        · simp only [List.mem_cons] at h ⊢
          rcases h with h | h
          · exact Or.inr (Or.inl h)
          · exact (ih h).imp id Or.inr

theorem sortedByName_insertEntry {α : Type u} (name : String) (value : α)
    {entries : List (String × α)} (h : SortedByName entries) :
    SortedByName (insertEntry name value entries) := by
  induction entries with
  | nil => simp [insertEntry, SortedByName]
  | cons head tail ih =>
      obtain ⟨hhead, htail⟩ := List.pairwise_cons.mp h
      rw [insertEntry]
      split
      · rename_i hlt
        refine List.pairwise_cons.mpr ⟨?_, h⟩
        intro entry hentry
        rcases List.mem_cons.mp hentry with rfl | hentry
        · exact hlt
        · exact String.lt_trans hlt (hhead entry hentry)
      · split
        · rename_i heq
          exact List.pairwise_cons.mpr ⟨fun entry hentry => heq ▸ hhead entry hentry, htail⟩
        · rename_i hlt hne
          refine List.pairwise_cons.mpr ⟨?_, ih htail⟩
          intro entry hentry
          rcases mem_insertEntry hentry with rfl | hentry
          · rcases String.le_total name head.1 with hle | hle
            · exact absurd (String.le_antisymm hle (String.not_lt.mp hlt)) hne
            · by_cases hgt : head.1 < name
              · exact hgt
              · exact absurd (String.le_antisymm (String.not_lt.mp hgt) hle) hne
          · exact hhead entry hentry

theorem valueNamed?_of_mem {α : Type u} {name : String} {value : α}
    {entries : List (String × α)} (hsorted : SortedByName entries)
    (hmem : (name, value) ∈ entries) : valueNamed? name entries = some value := by
  induction entries with
  | nil => cases hmem
  | cons head tail ih =>
      obtain ⟨hhead, htail⟩ := List.pairwise_cons.mp hsorted
      rcases List.mem_cons.mp hmem with rfl | hmem
      · simp [valueNamed?]
      · have hlt : head.1 < name := hhead (name, value) hmem
        have hne : head.1 ≠ name := by
          intro hname
          rw [hname] at hlt
          exact String.lt_irrefl name hlt
        simpa [valueNamed?, hne] using ih htail hmem

theorem valueNamed?_insertEntry_self {α : Type u} (name : String) (value : α)
    (entries : List (String × α)) :
    valueNamed? name (insertEntry name value entries) = some value := by
  induction entries with
  | nil => simp [insertEntry, valueNamed?]
  | cons head tail ih =>
      rw [insertEntry]
      split
      · simp [valueNamed?]
      · split
        · simp [valueNamed?]
        · rename_i hne
          simpa [valueNamed?, Ne.symm hne] using ih

theorem valueNamed?_insertEntry_of_ne {α : Type u} {name other : String} (h : other ≠ name)
    (value : α) (entries : List (String × α)) :
    valueNamed? other (insertEntry name value entries) = valueNamed? other entries := by
  induction entries with
  | nil => simp [insertEntry, valueNamed?, Ne.symm h]
  | cons head tail ih =>
      rw [insertEntry]
      split
      · simp [valueNamed?, Ne.symm h]
      · split
        · rename_i heq
          simp [valueNamed?, Ne.symm h, ← heq]
        · by_cases hhead : head.1 = other
          · simp [valueNamed?, hhead]
          · simpa [valueNamed?, hhead] using ih

/-- A dictionary from names to values. -/
structure Dict (α : Type u) where
  entries : List (String × α)
  sorted : SortedByName entries

namespace Dict

variable {α : Type u}

/-- The dictionary without entries. -/
def empty : Dict α := ⟨[], List.Pairwise.nil⟩

instance : Inhabited (Dict α) := ⟨empty⟩

/-- The dictionary with the entry, in place of any other with the same name. -/
def insert (dict : Dict α) (name : String) (value : α) : Dict α :=
  ⟨insertEntry name value dict.entries, sortedByName_insertEntry name value dict.sorted⟩

/-- The value under a name. -/
def find? (dict : Dict α) (name : String) : Option α :=
  valueNamed? name dict.entries

theorem ext {left right : Dict α} (h : left.entries = right.entries) : left = right := by
  cases left
  cases right
  cases h
  rfl

theorem find?_eq_some_iff {dict : Dict α} {name : String} {value : α} :
    dict.find? name = some value ↔ (name, value) ∈ dict.entries :=
  ⟨mem_of_valueNamed?, valueNamed?_of_mem dict.sorted⟩

@[simp] theorem find?_insert_self (dict : Dict α) (name : String) (value : α) :
    (dict.insert name value).find? name = some value :=
  valueNamed?_insertEntry_self name value dict.entries

theorem find?_insert_of_ne (dict : Dict α) {name other : String} (h : other ≠ name)
    (value : α) : (dict.insert name value).find? other = dict.find? other :=
  valueNamed?_insertEntry_of_ne h value dict.entries

end Dict

end FilterSql

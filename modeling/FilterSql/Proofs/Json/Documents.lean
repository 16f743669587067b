/-
Documents of JSON read back.

A document is a value that a text can say: the members of its objects are sorted by name, its
whole numbers are held by 64 bits, and its doubles are read back one by one.  Its compact text
is read as the same document, and becomes the same value when it is not nested too deep.
-/
import FilterSql.Proofs.Json.Scalars

namespace FilterSql

namespace Json

/-- A value that can be read from a text. -/
inductive IsDocument : Json → Prop
  | null : IsDocument .null
  | bool (b : Bool) : IsDocument (.bool b)
  | whole {n : Int} (hlow : -2 ^ 63 ≤ n) (hhigh : n < 2 ^ 64) : IsDocument (.number (.whole n))
  | double {x : Binary64}
      (hread : Document.readNumber (numberChars (.double x)) = (.number (.double x), [])) :
      IsDocument (.number (.double x))
  | string (s : String) : IsDocument (.string s)
  | array {items : List Json} (hitems : ∀ item ∈ items, IsDocument item) :
      IsDocument (.array items)
  | object {members : List (String × Json)} (hsorted : SortedByName members)
      (hmembers : ∀ member ∈ members, IsDocument member.2) : IsDocument (.object members)

mutual

/-- How many arrays and objects are nested in each other. -/
def depth : Json → Nat
  | array items => itemsDepth items + 1
  | object members => membersDepth members + 1
  | _ => 0

/-- The depth of the deepest item. -/
def itemsDepth : List Json → Nat
  | [] => 0
  | item :: items => max item.depth (itemsDepth items)

/-- The depth of the deepest member. -/
def membersDepth : List (String × Json) → Nat
  | [] => 0
  | (_, value) :: members => max value.depth (membersDepth members)

end

/-- A character that a value can start with. -/
def startsValue (c : Char) : Bool :=
  Document.startsNumber c || ['n', 't', 'f', '"', '[', '\x7b'].contains c

theorem IsDocument.exists_chars_eq_cons {json : Json} (hjson : json.IsDocument) :
    ∃ c cs, json.chars = c :: cs ∧ startsValue c = true := by
  cases hjson with
  | null => exact ⟨'n', _, rfl, rfl⟩
  | bool b => cases b <;> exact ⟨_, _, rfl, rfl⟩
  | whole hlow hhigh =>
      obtain ⟨c, cs, hchars, hc⟩ :=
        Document.startsNumber_of_readNumber (Document.readNumber_intChars hlow hhigh)
      exact ⟨c, cs, hchars, by rw [startsValue, hc, Bool.true_or]⟩
  | double hread =>
      obtain ⟨c, cs, hchars, hc⟩ := Document.startsNumber_of_readNumber hread
      exact ⟨c, cs, hchars, by rw [startsValue, hc, Bool.true_or]⟩
  | string s => exact ⟨'"', _, rfl, rfl⟩
  | array hitems => exact ⟨'[', _, rfl, rfl⟩
  | object hsorted hmembers => exact ⟨'\x7b', _, rfl, rfl⟩

end Json

namespace Document

theorem startsValue_of_isGap {c : Char} (hgap : isGap c = true) : Json.startsValue c = false := by
  simp only [isGap, Bool.or_eq_true, beq_iff_eq] at hgap
  rcases hgap with ((rfl | rfl) | rfl) | rfl <;> decide

theorem skipGap_of_startsValue {c : Char} (hc : Json.startsValue c = true) (cs : List Char) :
    skipGap (c :: cs) = c :: cs := by
  have hgap : ¬isGap c = true := by
    intro hgap
    rw [startsValue_of_isGap hgap] at hc
    cases hc
  rw [skipGap, List.dropWhile_cons, if_neg hgap]

theorem ne_of_startsNumber {c : Char} (hc : startsNumber c = true) :
    ∀ d ∈ ['"', '[', '\x7b', 'n', 't', 'f'], c ≠ d := by
  rintro d hd rfl
  have hnone : ['"', '[', '\x7b', 'n', 't', 'f'].all (fun d => !startsNumber d) = true := rfl
  have hother := List.all_eq_true.mp hnone c hd
  rw [hc] at hother
  cases hother

theorem read_of_startsNumber {c : Char} (hc : startsNumber c = true) (fuel : Nat)
    (cs : List Char) : read (fuel + 1) (c :: cs) = readNumber (c :: cs) := by
  have hvalue : Json.startsValue c = true := by rw [Json.startsValue, hc, Bool.true_or]
  have hne := ne_of_startsNumber hc
  unfold read
  rw [skipGap_of_startsValue hvalue]
  split
  case h_7 => rfl
  all_goals
    next heq => exact absurd (List.cons.inj heq).1 (hne _ (by decide))

theorem read_bracket {c : Char} (hc : Json.startsValue c = true) (fuel : Nat) (cs : List Char) :
    read (fuel + 1) ('[' :: c :: cs) =
      (array (readItems fuel (c :: cs)).1, (readItems fuel (c :: cs)).2) := by
  have hgap : skipGap ('[' :: c :: cs) = '[' :: c :: cs := rfl
  have hclose : c ≠ ']' := by
    rintro rfl
    cases hc
  simp [read, hgap, skipGap_of_startsValue hc, hclose]

theorem read_brace (fuel : Nat) (cs : List Char) :
    read (fuel + 1) ('\x7b' :: '"' :: cs) =
      (object (readEntries fuel ('"' :: cs)).1, (readEntries fuel ('"' :: cs)).2) :=
  rfl

end Document

/-- The text of a value is read as its document, whatever follows it. -/
def Json.ReadsBack (json : Json) : Prop :=
  ∀ fuel rest, json.chars.length < fuel → Document.EndsNumber rest →
    Document.read fuel (json.chars ++ rest) = (json.toDocument, rest)

namespace Document

open Json (ReadsBack)

theorem endsNumber_cons {c : Char} (hc : isNumberChar c = false) (cs : List Char) :
    EndsNumber (c :: cs) := by
  rintro _ ⟨⟩
  exact hc

theorem readItems_itemChars {items : List Json} (hne : items ≠ [])
    (hitems : ∀ item ∈ items, item.ReadsBack) {fuel : Nat}
    (hfuel : (Json.itemChars items).length + 1 < fuel) (rest : List Char) :
    readItems fuel (Json.itemChars items ++ ']' :: rest) = (Json.itemDocuments items, rest) := by
  induction items generalizing fuel with
  | nil => exact absurd rfl hne
  | cons item items ih =>
      obtain ⟨fuel, rfl⟩ : ∃ n, fuel = n + 1 := ⟨fuel - 1, by omega⟩
      cases items with
      | nil =>
          rw [Json.itemChars] at hfuel ⊢
          have hread := hitems item List.mem_cons_self fuel (']' :: rest) (by omega)
            (endsNumber_cons rfl rest)
          have hgap : skipGap (']' :: rest) = ']' :: rest := rfl
          simp only [readItems, hread, hgap]
          rfl
      | cons next items =>
          have hchars : Json.itemChars (item :: next :: items) =
              item.chars ++ ',' :: Json.itemChars (next :: items) := rfl
          rw [hchars, List.length_append, List.length_cons] at hfuel
          rw [hchars, List.append_assoc, List.cons_append]
          have hread := hitems item List.mem_cons_self fuel
            (',' :: (Json.itemChars (next :: items) ++ ']' :: rest)) (by omega)
            (endsNumber_cons rfl _)
          have hrest : readItems fuel (Json.itemChars (next :: items) ++ ']' :: rest) =
              (Json.itemDocuments (next :: items), rest) :=
            ih (List.cons_ne_nil next items)
              (fun other hother => hitems other (List.mem_cons_of_mem item hother)) (by omega)
          have hgap : skipGap (',' :: (Json.itemChars (next :: items) ++ ']' :: rest)) =
              ',' :: (Json.itemChars (next :: items) ++ ']' :: rest) := rfl
          simp only [readItems, hread, hgap, hrest]
          rfl

theorem readEntries_memberChars {members : List (String × Json)} (hne : members ≠ [])
    (hmembers : ∀ member ∈ members, member.2.ReadsBack) {fuel : Nat}
    (hfuel : (Json.memberChars members).length + 1 < fuel) (rest : List Char) :
    readEntries fuel (Json.memberChars members ++ '\x7d' :: rest) =
      (Json.memberEntries members, rest) := by
  induction members generalizing fuel with
  | nil => exact absurd rfl hne
  | cons member members ih =>
      obtain ⟨fuel, rfl⟩ : ∃ n, fuel = n + 1 := ⟨fuel - 1, by omega⟩
      obtain ⟨name, value⟩ := member
      have hvalue : value.ReadsBack := hmembers (name, value) List.mem_cons_self
      cases members with
      | nil =>
          have hchars : Json.memberChars [(name, value)] =
              Json.quote name.toList ++ ':' :: value.chars := rfl
          rw [hchars, List.length_append, List.length_cons] at hfuel
          rw [hchars, List.append_assoc, List.cons_append]
          have hread := hvalue fuel ('\x7d' :: rest) (by omega) (endsNumber_cons rfl rest)
          have hgap : skipGap ('\x7d' :: rest) = '\x7d' :: rest := rfl
          simp only [readEntries, readLabel?_quote, hread, hgap]
          rfl
      | cons next members =>
          have hchars : Json.memberChars ((name, value) :: next :: members) =
              Json.quote name.toList ++ ':' :: value.chars ++
                ',' :: Json.memberChars (next :: members) := rfl
          rw [hchars, List.length_append, List.length_append, List.length_cons,
            List.length_cons] at hfuel
          rw [hchars, List.append_assoc, List.append_assoc, List.cons_append, List.cons_append]
          have hread := hvalue fuel (',' :: (Json.memberChars (next :: members) ++ '\x7d' :: rest))
            (by omega) (endsNumber_cons rfl _)
          have hrest : readEntries fuel (Json.memberChars (next :: members) ++ '\x7d' :: rest) =
              (Json.memberEntries (next :: members), rest) :=
            ih (List.cons_ne_nil next members)
              (fun other hother => hmembers other (List.mem_cons_of_mem _ hother)) (by omega)
          have hgap : skipGap (',' :: (Json.memberChars (next :: members) ++ '\x7d' :: rest)) =
              ',' :: (Json.memberChars (next :: members) ++ '\x7d' :: rest) := rfl
          simp only [readEntries, readLabel?_quote, hread, hgap, hrest]
          rfl

end Document

namespace Json

theorem itemChars_cons (item : Json) (items : List Json) :
    ∃ tail, itemChars (item :: items) = item.chars ++ tail := by
  cases items with
  | nil => exact ⟨[], (List.append_nil _).symm⟩
  | cons next items => exact ⟨_, rfl⟩

theorem readsBack_number {n : JsonNumber}
    (hread : Document.readNumber (numberChars n) = (.number n, [])) :
    (Json.number n).ReadsBack := by
  intro fuel rest hfuel hrest
  obtain ⟨fuel, rfl⟩ : ∃ m, fuel = m + 1 := ⟨fuel - 1, by omega⟩
  obtain ⟨c, cs, hchars, hc⟩ := Document.startsNumber_of_readNumber hread
  calc Document.read (fuel + 1) (numberChars n ++ rest)
      = Document.readNumber (numberChars n ++ rest) := by
        rw [hchars, List.cons_append, Document.read_of_startsNumber hc]
    _ = (.number n, rest) := Document.readNumber_append hread hrest

theorem readsBack_string (s : String) : (Json.string s).ReadsBack := by
  intro fuel rest hfuel hrest
  obtain ⟨fuel, rfl⟩ : ∃ m, fuel = m + 1 := ⟨fuel - 1, by omega⟩
  have hchars : (Json.string s).chars ++ rest =
      '"' :: (s.toList.flatMap escapeChar ++ '"' :: rest) := by
    rw [chars, quote, List.cons_append, List.cons_append, List.append_assoc]
    rfl
  rw [hchars]
  exact Document.readString_flatMap_escapeChar s rest

theorem readsBack_array {items : List Json} (hitems : ∀ item ∈ items, item.IsDocument)
    (hread : ∀ item ∈ items, item.ReadsBack) : (Json.array items).ReadsBack := by
  intro fuel rest hfuel hrest
  obtain ⟨fuel, rfl⟩ : ∃ m, fuel = m + 1 := ⟨fuel - 1, by omega⟩
  have hchars : (Json.array items).chars ++ rest = '[' :: (itemChars items ++ ']' :: rest) := by
    rw [chars, List.cons_append, List.cons_append, List.append_assoc]
    rfl
  rw [chars, List.length_append, List.length_cons, List.length_singleton] at hfuel
  rw [hchars]
  cases items with
  | nil => rfl
  | cons item items =>
      have hbody := Document.readItems_itemChars (List.cons_ne_nil item items) hread
        (by omega : _ < fuel) rest
      obtain ⟨c, cs, hhead, hc⟩ := (hitems item List.mem_cons_self).exists_chars_eq_cons
      obtain ⟨tail, htail⟩ := itemChars_cons item items
      rw [htail, hhead, List.cons_append, List.cons_append] at hbody ⊢
      rw [Document.read_bracket hc, hbody]
      rfl

theorem memberChars_cons (name : String) (value : Json) (members : List (String × Json)) :
    ∃ tail, memberChars ((name, value) :: members) = '"' :: tail := by
  cases members with
  | nil => exact ⟨_, rfl⟩
  | cons next members => exact ⟨_, rfl⟩

theorem readsBack_object {members : List (String × Json)}
    (hread : ∀ member ∈ members, member.2.ReadsBack) : (Json.object members).ReadsBack := by
  intro fuel rest hfuel hrest
  obtain ⟨fuel, rfl⟩ : ∃ m, fuel = m + 1 := ⟨fuel - 1, by omega⟩
  have hchars : (Json.object members).chars ++ rest =
      '\x7b' :: (memberChars members ++ '\x7d' :: rest) := by
    rw [chars, List.cons_append, List.cons_append, List.append_assoc]
    rfl
  rw [chars, List.length_append, List.length_cons, List.length_singleton] at hfuel
  rw [hchars]
  cases members with
  | nil => rfl
  | cons member members =>
      have hbody := Document.readEntries_memberChars (List.cons_ne_nil member members) hread
        (by omega : _ < fuel) rest
      obtain ⟨tail, htail⟩ := memberChars_cons member.1 member.2 members
      rw [htail, List.cons_append] at hbody ⊢
      rw [Document.read_brace, hbody]
      rfl

/-- Documents are read back. -/
theorem IsDocument.readsBack {json : Json} (hjson : json.IsDocument) : json.ReadsBack := by
  induction hjson with
  | null =>
      rintro (_ | fuel) rest hfuel hrest
      · cases hfuel
      · rfl
  | bool b =>
      rintro (_ | fuel) rest hfuel hrest
      · cases hfuel
      · cases b <;> rfl
  | whole hlow hhigh => exact readsBack_number (Document.readNumber_intChars hlow hhigh)
  | double hread => exact readsBack_number hread
  | string s => exact readsBack_string s
  | array hitems ih => exact readsBack_array hitems ih
  | object hsorted hmembers ih => exact readsBack_object ih

theorem insertEntry_of_forall_lt {α : Type u} {name : String} {value : α}
    {entries : List (String × α)} (hlt : ∀ entry ∈ entries, entry.1 < name) :
    insertEntry name value entries = entries ++ [(name, value)] := by
  induction entries with
  | nil => rfl
  | cons head tail ih =>
      have hhead := hlt head List.mem_cons_self
      have hne : ¬name = head.1 := by
        intro heq
        rw [heq] at hhead
        exact String.lt_irrefl _ hhead
      rw [insertEntry, if_neg (String.lt_asymm hhead), if_neg hne,
        ih fun entry hentry => hlt entry (List.mem_cons_of_mem head hentry)]
      rfl

/-- Members that are sorted already stay as they are. -/
theorem foldl_insertEntry {before members : List (String × Json)}
    (hsorted : SortedByName (before ++ members)) :
    members.foldl (fun sorted (name, value) => insertEntry name value sorted) before =
      before ++ members := by
  induction members generalizing before with
  | nil => rw [List.append_nil, List.foldl_nil]
  | cons member members ih =>
      obtain ⟨name, value⟩ := member
      have hlast : ∀ entry ∈ before, entry.1 < name := fun entry hentry =>
        (List.pairwise_append.mp hsorted).2.2 entry hentry (name, value) List.mem_cons_self
      rw [List.append_cons] at hsorted
      rw [List.foldl_cons, List.append_cons, ← ih hsorted]
      exact congrArg (List.foldl _ · members) (insertEntry_of_forall_lt hlast)

theorem ofMembers_of_sorted {members : List (String × Json)} (hsorted : SortedByName members) :
    ofMembers members = .object members :=
  congrArg Json.object (@foldl_insertEntry [] members hsorted)

/-- The document of a value becomes the value again where there is room for its depth. -/
def Fits (json : Json) : Prop :=
  ∀ room, json.toDocument.toJson? room = if json.depth ≤ room then some json else none

theorem itemsToJson?_itemDocuments {items : List Json} (hitems : ∀ item ∈ items, item.Fits)
    (room : Nat) :
    Document.itemsToJson? room (itemDocuments items) =
      if itemsDepth items ≤ room then some items else none := by
  induction items with
  | nil => rfl
  | cons item items ih =>
      rw [itemDocuments, Document.itemsToJson?, hitems item List.mem_cons_self room,
        ih fun other hother => hitems other (List.mem_cons_of_mem item hother)]
      simp only [itemsDepth, Nat.max_le]
      by_cases hitem : item.depth ≤ room
      · by_cases hrest : itemsDepth items ≤ room
        · simp [hitem, hrest]
        · simp [hrest]
      · simp [hitem]

theorem entriesToJson?_memberEntries {members : List (String × Json)}
    (hmembers : ∀ member ∈ members, member.2.Fits) (room : Nat) :
    Document.entriesToJson? room (memberEntries members) =
      if membersDepth members ≤ room then some members else none := by
  induction members with
  | nil => rfl
  | cons member members ih =>
      rw [memberEntries, Document.entriesToJson?, hmembers member List.mem_cons_self room,
        ih fun other hother => hmembers other (List.mem_cons_of_mem member hother)]
      simp only [membersDepth, Nat.max_le]
      by_cases hmember : member.2.depth ≤ room
      · by_cases hrest : membersDepth members ≤ room
        · simp [hmember, hrest]
        · simp [hrest]
      · simp [hmember]

theorem IsDocument.fits {json : Json} (hjson : json.IsDocument) : json.Fits := by
  induction hjson with
  | null => exact fun room => (if_pos (Nat.zero_le room)).symm
  | bool b => exact fun room => (if_pos (Nat.zero_le room)).symm
  | whole hlow hhigh => exact fun room => (if_pos (Nat.zero_le room)).symm
  | double hread => exact fun room => (if_pos (Nat.zero_le room)).symm
  | string s => exact fun room => (if_pos (Nat.zero_le room)).symm
  | @array items hitems ih =>
      intro room
      rw [toDocument, Document.toJson?, depth]
      cases room with
      | zero => simp
      | succ room =>
          rw [if_neg (Nat.succ_ne_zero room), Nat.add_sub_cancel, itemsToJson?_itemDocuments ih]
          simp only [Nat.add_le_add_iff_right]
          split <;> rfl
  | @object members hsorted hmembers ih =>
      intro room
      rw [toDocument, Document.toJson?, depth]
      cases room with
      | zero => simp
      | succ room =>
          rw [if_neg (Nat.succ_ne_zero room), Nat.add_sub_cancel, entriesToJson?_memberEntries ih]
          simp only [Nat.add_le_add_iff_right]
          split
          · exact congrArg some (ofMembers_of_sorted hsorted)
          · rfl

/-- A document is read back from its compact text, if it is not nested too deep. -/
theorem IsDocument.toJson?_compact {json : Json} (hjson : json.IsDocument) :
    (DocumentText.ofText json.compact).toJson? =
      if json.depth ≤ DocumentText.depthLimit then some json else none := by
  have hread := hjson.readsBack (json.chars.length + 1) [] (Nat.lt_succ_self _)
    (fun c hc => nomatch hc)
  rw [List.append_nil] at hread
  have htext : DocumentText.ofText json.compact = ⟨json.toDocument, true⟩ := by
    simp only [DocumentText.ofText, compact, String.toList_ofList, hread]
    rfl
  rw [htext]
  exact hjson.fits DocumentText.depthLimit

end Json

end FilterSql

/-
Values read back from the columns that they are bound for.

A value that is bound as a type is found again in a column of that type: as its text where the
type holds text, as itself where the type has a place for it, and as the day or the midnight
that stands for it where the type has only one of the two.  A document of JSON is found again
unless it is nested deeper than the reader goes; then the column has no value.
-/
import FilterSql.Postgres.Bind
import FilterSql.Postgres.Column
import FilterSql.Proofs.Calendar.DayNumber
import FilterSql.Proofs.Json.Documents
import FilterSql.Proofs.Postgres.Bytes

namespace FilterSql.Postgres

/-- A date with a time of day. -/
def SqlType.isTimestamp : SqlType → Bool
  | timestamp | timestamptz => true
  | _ => false

/-- Documents of JSON, as text or with a version before it. -/
def SqlType.isJson : SqlType → Bool
  | json | jsonb => true
  | _ => false

/-- What a column of a type gives for a value that was bound as the type. -/
inductive ReadsAs : Value → SqlType → Option Value → Prop
  | text {value : Value} {text : String} {type : SqlType} (htype : type.isText = true)
      (htext : value.toText? = some text) : ReadsAs value type (some (.string text))
  | truth (b : Bool) : ReadsAs (.boolean b) .bool (some (.boolean b))
  | word {s : String} {b : Bool} (hword : Value.readBool? s = some b) :
      ReadsAs (.string s) .bool (some (.boolean b))
  | int (n : Int64) {type : SqlType} (htype : type.integerWidth?.isSome = true) :
      ReadsAs (.int n) type (some (.int n))
  | date (date : Date) : ReadsAs (.date date) .date (some (.date date))
  | day (stamp : Timestamp) : ReadsAs (.timestamp stamp) .date (some (.date stamp.date))
  | midnight (date : Date) {type : SqlType} (htype : type.isTimestamp = true) :
      ReadsAs (.date date) type (some (.timestamp ⟨date, .midnight⟩))
  | timestamp {stamp : Timestamp} {type : SqlType} (htype : type.isTimestamp = true)
      (hleap : stamp.time.isLeapSecond = false) (hwhole : stamp.time.nanos % 1000 = 0) :
      ReadsAs (.timestamp stamp) type (some (.timestamp stamp))
  | json {document : Json} {type : SqlType} (htype : type.isJson = true)
      (hdocument : document.IsDocument) (hdepth : document.depth ≤ DocumentText.depthLimit) :
      ReadsAs (.json document) type (some (.json document))
  | deep {document : Json} {type : SqlType} (htype : type.isJson = true)
      (hdocument : document.IsDocument) (hdepth : DocumentText.depthLimit < document.depth) :
      ReadsAs (.json document) type none

section Reading

variable {type : SqlType}

/-- A column is read as its own type. -/
theorem valueAs?_label (name : String) (type : SqlType) (bytes : Bytes) :
    (Column.mk name type (some bytes)).valueAs? type.label = readBytes? bytes type := by
  cases type <;> rfl

theorem readBytes?_of_isText (htype : type.isText = true) (bytes : Bytes) :
    readBytes? bytes type = (Bytes.toText? bytes).map .string := by
  cases type <;> first | rfl | cases htype

theorem readBytes?_of_isTimestamp (htype : type.isTimestamp = true) (bytes : Bytes) :
    readBytes? bytes type =
      (Bytes.toInt? 8 bytes).bind fun micros => (Timestamp.ofMicros? micros).map .timestamp := by
  cases type <;> first | rfl | cases htype

theorem readBytes?_of_integerWidth? {width : Nat} (hwidth : type.integerWidth? = some width)
    (bytes : Bytes) :
    readBytes? bytes type = (Bytes.toInt? width bytes).map fun n => .int (Int64.ofInt n) := by
  cases type <;> cases hwidth <;> rfl

theorem readBytes?_boolByte (b : Bool) : readBytes? (boolByte b) .bool = some (.boolean b) := by
  cases b <;> rfl

theorem readBytes?_dateBytes (date : Date) :
    readBytes? (dateBytes date) .date = some (.date date) := by
  obtain ⟨hlow, hhigh⟩ := date.dayNumber_bounds
  have hdays : Bytes.toInt? 4 (dateBytes date) = some date.dayNumber :=
    Bytes.toInt?_ofInt (by omega) (by omega)
  rw [readBytes?, hdays, Option.bind_eq_bind, Option.bind_some, Date.ofDayNumber?_dayNumber]
  rfl

theorem readBytes?_timestampBytes (htype : type.isTimestamp = true) {stamp : Timestamp}
    (hleap : stamp.time.isLeapSecond = false) (hwhole : stamp.time.nanos % 1000 = 0) :
    readBytes? (timestampBytes stamp) type = some (.timestamp stamp) := by
  obtain ⟨hlow, hhigh⟩ := stamp.microsSinceOrigin_bounds
  have hmicros : Bytes.toInt? 8 (timestampBytes stamp) = some stamp.microsSinceOrigin :=
    Bytes.toInt?_ofInt (by omega) (by omega)
  rw [readBytes?_of_isTimestamp htype, hmicros, Option.bind_some,
    Timestamp.ofMicros?_microsSinceOrigin hleap hwhole]
  rfl

theorem readJson?_ofText {document : Json} (hdocument : document.IsDocument) :
    readJson? (Bytes.ofText document.compact) =
      if document.depth ≤ DocumentText.depthLimit then some document else none := by
  rw [readJson?, Bytes.toText?_ofText, Option.bind_eq_bind, Option.bind_some]
  exact hdocument.toJson?_compact

end Reading

section Binding

variable {type : SqlType} {bytes : Bytes}

/-- As a type of text a value is bound by its text. -/
theorem bytes_of_bind_text {value : Value} {text : String} (htype : type.isText = true)
    (htext : value.toText? = some text) (hbind : bind value type = .ok (some bytes)) :
    bytes = Bytes.ofText text := by
  cases value <;> cases type <;> cases htype <;> cases hbind <;> cases htext <;> rfl

theorem bytes_of_bind_int {n : Int64} {width : Nat} (hwidth : type.integerWidth? = some width)
    (hbind : bind (.int n) type = .ok (some bytes)) :
    (-((256 ^ width : Nat) : Int) ≤ n.toInt * 2 ∧ n.toInt * 2 < ((256 ^ width : Nat) : Int)) ∧
      bytes = Bytes.ofInt width n.toInt := by
  have hint : bind (.int n) type = (bindInWidth n.toInt width).map some := by
    cases type <;> cases hwidth <;> rfl
  rw [hint, bindInWidth] at hbind
  split at hbind
  next hrange =>
    cases hbind
    refine ⟨?_, rfl⟩
    cases type <;> cases hwidth <;> simp only [Nat.pow_eq] at hrange <;> omega
  next => cases hbind

theorem bytes_of_bind_date {date : Date} (htype : type.isTimestamp = true)
    (hbind : bind (.date date) type = .ok (some bytes)) :
    bytes = timestampBytes ⟨date, .midnight⟩ := by
  cases type <;> cases htype <;> cases hbind <;> rfl

theorem bytes_of_bind_timestamp {stamp : Timestamp} (htype : type.isTimestamp = true)
    (hbind : bind (.timestamp stamp) type = .ok (some bytes)) : bytes = timestampBytes stamp := by
  cases type <;> cases htype <;> cases hbind <;> rfl

/-- The text of a document is read from either type, the version before it passed over. -/
theorem readBytes?_of_bind_json {document : Json} (htype : type.isJson = true)
    (hbind : bind (.json document) type = .ok (some bytes)) :
    readBytes? bytes type = (readJson? (Bytes.ofText document.compact)).map .json := by
  cases type <;> cases htype <;> cases hbind <;> rfl

theorem bind_word {s : String} {b : Bool} (hword : Value.readBool? s = some b) :
    bind (.string s) .bool = .ok (some (boolByte b)) := by
  have htext : bindText s .bool = .ok (boolByte b) := by
    simp [bindText, SqlType.isText, SqlType.integerWidth?, SqlType.isNumber, hword]
  rw [bind, htext]
  rfl

end Binding

/-- A value that is bound as a type is read from a column of the type as it should be. -/
theorem valueAs?_of_bind {value : Value} {type : SqlType} {bytes : Bytes} {result : Option Value}
    (hbind : bind value type = .ok (some bytes)) (hreads : ReadsAs value type result)
    (name : String) :
    (Column.mk name type (some bytes)).valueAs? type.label = result := by
  rw [valueAs?_label]
  cases hreads with
  | text htype htext =>
      rw [bytes_of_bind_text htype htext hbind, readBytes?_of_isText htype, Bytes.toText?_ofText]
      rfl
  | truth b =>
      cases hbind
      exact readBytes?_boolByte b
  | @word s b hword =>
      rw [bind_word hword] at hbind
      cases hbind
      exact readBytes?_boolByte b
  | int n htype =>
      obtain ⟨width, hwidth⟩ := Option.isSome_iff_exists.mp htype
      obtain ⟨⟨hlow, hhigh⟩, rfl⟩ := bytes_of_bind_int hwidth hbind
      rw [readBytes?_of_integerWidth? hwidth, Bytes.toInt?_ofInt hlow hhigh, Option.map_some,
        Int64.ofInt_toInt]
  | date date =>
      cases hbind
      exact readBytes?_dateBytes date
  | day stamp =>
      cases hbind
      exact readBytes?_dateBytes stamp.date
  | midnight date htype =>
      rw [bytes_of_bind_date htype hbind]
      exact readBytes?_timestampBytes htype rfl rfl
  | timestamp htype hleap hwhole =>
      rw [bytes_of_bind_timestamp htype hbind]
      exact readBytes?_timestampBytes htype hleap hwhole
  | json htype hdocument hdepth =>
      rw [readBytes?_of_bind_json htype hbind, readJson?_ofText hdocument, if_pos hdepth]
      rfl
  | deep htype hdocument hdepth =>
      rw [readBytes?_of_bind_json htype hbind, readJson?_ofText hdocument,
        if_neg (Nat.not_le.mpr hdepth)]
      rfl

namespace ReadBack

/-- A document with a list and a text that has a quote in it. -/
def tagged : Json :=
  .object [("ids", .array [.int 7, .int (-1), .null]), ("name", .string "O\"Neil")]

theorem tagged_isDocument : tagged.IsDocument := by
  have hsorted : SortedByName [("ids", Json.array [.int 7, .int (-1), .null]),
      ("name", .string "O\"Neil")] :=
    .cons (List.forall_mem_singleton.mpr (by decide)) (List.pairwise_singleton _ _)
  refine .object hsorted ?_
  simp only [List.forall_mem_cons, List.not_mem_nil, false_imp_iff, implies_true, and_true]
  refine ⟨.array ?_, .string _⟩
  simp only [List.forall_mem_cons, List.not_mem_nil, false_imp_iff, implies_true, and_true]
  exact ⟨.whole (by decide) (by decide), .whole (by decide) (by decide), .null⟩

/-- The document is bound and read back as it was. -/
theorem valueAs?_of_tagged :
    bind (.json tagged) .jsonb = .ok (some (1 :: Bytes.ofText tagged.compact)) ∧
      ReadsAs (.json tagged) .jsonb (some (.json tagged)) ∧
      (Column.mk "tags" .jsonb (some (1 :: Bytes.ofText tagged.compact))).valueAs? "jsonb" =
        some (.json tagged) := by
  have hbind : bind (.json tagged) .jsonb = .ok (some (1 :: Bytes.ofText tagged.compact)) := rfl
  have hreads : ReadsAs (.json tagged) .jsonb (some (.json tagged)) :=
    .json rfl tagged_isDocument (by decide)
  exact ⟨hbind, hreads, valueAs?_of_bind hbind hreads "tags"⟩

/-- An empty list in as many lists. -/
def nested : Nat → Json
  | 0 => .array []
  | n + 1 => .array [nested n]

theorem nested_isDocument (n : Nat) : (nested n).IsDocument := by
  induction n with
  | zero => exact .array (List.forall_mem_nil _)
  | succ n ih => exact .array (List.forall_mem_singleton.mpr ih)

theorem depth_nested (n : Nat) : (nested n).depth = n + 1 := by
  induction n with
  | zero => rfl
  | succ n ih =>
      rw [nested, Json.depth, Json.itemsDepth, Json.itemsDepth, ih, Nat.max_zero]

/-- The whole double before `2 ^ 53`. -/
def large : Binary64 := ⟨0x433FFFFFFFFFFFFF⟩

/-- Not every document without a fraction is read back: 128 lists in each other are bound, but
their column has no value, and the whole double before `2 ^ 53` is read as the one before it. -/
theorem documents_not_readBack :
    ((nested 127).IsDocument ∧
      bind (.json (nested 127)) .json = .ok (some (Bytes.ofText (nested 127).compact)) ∧
      (Column.mk "c" .json (some (Bytes.ofText (nested 127).compact))).valueAs? "json" = none) ∧
    (large.isWhole = true ∧
      bind (.json (.double large)) .json = .ok (some (Bytes.ofText "9007199254740991.0")) ∧
      (Column.mk "c" .json (some (Bytes.ofText "9007199254740991.0"))).valueAs? "json" =
        some (.json (.double ⟨0x433FFFFFFFFFFFFE⟩))) := by
  have hcolumn : ∀ bytes, (Column.mk "c" .json (some bytes)).valueAs? "json" =
      (readJson? bytes).map .json := fun _ => rfl
  refine ⟨⟨nested_isDocument 127, rfl, ?_⟩, by decide +kernel, ?_, ?_⟩
  · have hdepth : ¬(nested 127).depth ≤ DocumentText.depthLimit := by
      rw [depth_nested]
      decide
    rw [hcolumn, readJson?_ofText (nested_isDocument 127), if_neg hdepth]
    rfl
  · have hfinite : Json.double large = .number (.double large) := rfl
    have hchars : Json.numberChars (.double large) = "9007199254740991.0".toList := by
      decide +kernel
    have hcompact : (Json.double large).compact = "9007199254740991.0" := by
      rw [hfinite, Json.compact, Json.chars, hchars, String.ofList_toList]
    rw [← hcompact]
    rfl
  · rw [hcolumn, readJson?, Bytes.toText?_ofText]
    rfl

end ReadBack

end FilterSql.Postgres

/-
JSON text, read into documents.

A document keeps the order of its entries and the repeated keys.  A text that breaks a
rule is still read up to the fault, which stands as `malformed` where it was met: whoever
decodes the document from front to back then meets the first of several faults first.
-/
import FilterSql.Text.Basic
import FilterSql.Json.Basic

namespace FilterSql

open FilterSql.Text (isAsciiDigit)

/-- What a JSON text says. -/
inductive Document
  | null
  | bool (b : Bool)
  | number (n : JsonNumber)
  | string (s : String)
  | array (items : List Document)
  /-- Entries in order; a key that holds half of a surrogate pair is no text. -/
  | object (entries : List (Option String × Document))
  /-- Well-formed, but no value can hold it. -/
  | unreadable
  /-- The text breaks a rule here, and nothing after it has been read. -/
  | malformed

namespace Document

instance : Inhabited Document := ⟨null⟩

/-- The blanks of JSON. -/
def isGap (c : Char) : Bool :=
  c == ' ' || c == '\n' || c == '\t' || c == '\r'

/-- The text after the blanks at its front. -/
def skipGap (cs : List Char) : List Char :=
  cs.dropWhile isGap

/-- The value of a hexadecimal digit. -/
def hexValue? (c : Char) : Option Nat :=
  if isAsciiDigit c then some (c.toNat - 0x30)
  else if 'a' ≤ c ∧ c ≤ 'f' then some (c.toNat - 0x57)
  else if 'A' ≤ c ∧ c ≤ 'F' then some (c.toNat - 0x37)
  else none

/-- The value of four hexadecimal digits. -/
def hexUnit? (a b c d : Char) : Option Nat := do
  let a ← hexValue? a
  let b ← hexValue? b
  let c ← hexValue? c
  let d ← hexValue? d
  return ((a * 16 + b) * 16 + c) * 16 + d

/-- The character after a backslash stands for this one. -/
def escaped? (c : Char) : Option Nat :=
  if c = '"' ∨ c = '\\' ∨ c = '/' then some c.toNat
  else if c = 'b' then some 8
  else if c = 'f' then some 12
  else if c = 'n' then some 10
  else if c = 'r' then some 13
  else if c = 't' then some 9
  else none

/-- The code points up to the closing quote, halves of surrogate pairs among them, and
the text after the quote. -/
def readPoints? : List Char → Option (List Nat × List Char)
  | [] => none
  | '"' :: cs => some ([], cs)
  | '\\' :: 'u' :: a :: b :: c :: d :: cs => do
      let unit ← hexUnit? a b c d
      let (points, rest) ← readPoints? cs
      return (unit :: points, rest)
  | '\\' :: c :: cs => do
      let point ← escaped? c
      let (points, rest) ← readPoints? cs
      return (point :: points, rest)
  | c :: cs =>
      if c = '\\' ∨ c.toNat < 0x20 then none
      else (readPoints? cs).map fun (points, rest) => (c.toNat :: points, rest)

/-- The characters of code points, two halves of a pair joined; none for a lone half. -/
def joinPoints? : List Nat → Option (List Char)
  | [] => some []
  | n :: ns =>
      if 0xD800 ≤ n ∧ n < 0xDC00 then
        match ns with
        | m :: rest =>
            if 0xDC00 ≤ m ∧ m < 0xE000 then
              (joinPoints? rest).map
                (Char.ofNat (0x10000 + (n - 0xD800) * 0x400 + (m - 0xDC00)) :: ·)
            else none
        | [] => none
      else if 0xDC00 ≤ n ∧ n < 0xE000 then none
      else (joinPoints? ns).map (Char.ofNat n :: ·)

/-- Take digits into a number as long as it stays below `2 ^ 64`; the rest is left. -/
def takeDigits (n : Nat) : List Char → Nat × List Char
  | [] => (n, [])
  | c :: cs =>
      let next := n * 10 + (c.toNat - 0x30)
      if next < UInt64.size then takeDigits next cs else (n, c :: cs)

/-- A double divided by `10 ^ places`, by at most 308 places at a time; after `steps`
divisions it has become zero. -/
def divideByTens (x : Binary64) (places : Nat) : Nat → Binary64
  | 0 => x
  | steps + 1 =>
      if places ≤ 308 then x.div (Binary64.ofNat (Nat.pow 10 places))
      else divideByTens (x.div (Binary64.ofNat (Nat.pow 10 308))) (places - 308) steps

/-- The magnitude `digits × 10 ^ exponent` by one rounding for the digits and one for the
scaling; none past the largest double. -/
def scale? (digits : Nat) (exponent : Int) : Option Binary64 :=
  let x := Binary64.ofNat digits
  if x.isZero then some x
  else if exponent < 0 then some (divideByTens x exponent.natAbs 4)
  else if 308 < exponent then none
  else
    let scaled := x.mul (Binary64.ofNat (Nat.pow 10 exponent.toNat))
    if scaled.isFinite then some scaled else none

/-- A number with its point and exponent.  Digits that 64 bits cannot hold move the
point; those behind it are dropped. -/
def decimal (negative : Bool) (whole fraction : List Char) (exponent : Int) : Document :=
  let (head, moved) := takeDigits 0 whole
  let (digits, dropped) := takeDigits head fraction
  let places : Int := (moved.length : Int) - ((fraction.length - dropped.length : Nat) : Int)
  match scale? digits (exponent + places) with
  | some x => .number (.double (if negative then x.neg else x))
  | none => .unreadable

/-- A number without point and exponent: whole when 64 bits hold it. -/
def integer (negative : Bool) (digits : List Char) : Document :=
  let n := Nat.ofDigitChars 10 digits 0
  if negative then
    if 0 < n ∧ n ≤ Nat.pow 2 63 then .number (.whole (-(n : Int))) else decimal true digits [] 0
  else if n < UInt64.size then .number (.whole n)
  else decimal false digits [] 0

/-- A fraction after its point; none where the point has no digit behind it. -/
def readFraction? : List Char → Option (List Char × List Char)
  | '.' :: cs =>
      let run := cs.takeWhile isAsciiDigit
      if run.isEmpty then none else some (run, cs.dropWhile isAsciiDigit)
  | cs => some ([], cs)

/-- The digits of an exponent with its sign before them. -/
def readExponentDigits? (negative : Bool) (cs : List Char) : Option (Option Int × List Char) :=
  let run := cs.takeWhile isAsciiDigit
  if run.isEmpty then none
  else
    let n : Int := Nat.ofDigitChars 10 run 0
    some (some (if negative then -n else n), cs.dropWhile isAsciiDigit)

/-- An exponent after its mark, if there is one. -/
def readExponent? : List Char → Option (Option Int × List Char)
  | [] => some (none, [])
  | c :: cs =>
      if c = 'e' ∨ c = 'E' then
        match cs with
        | '-' :: rest => readExponentDigits? true rest
        | '+' :: rest => readExponentDigits? false rest
        | _ => readExponentDigits? false cs
      else some (none, c :: cs)

/-- A number without its sign: no zero may stand before other digits. -/
def readMagnitude (negative : Bool) (cs : List Char) : Document × List Char :=
  let whole := cs.takeWhile isAsciiDigit
  let leadingZero : Bool := whole.head? == some '0' && 1 < whole.length
  if whole.isEmpty || leadingZero then (malformed, [])
  else
    match readFraction? (cs.dropWhile isAsciiDigit) with
    | none => (malformed, [])
    | some (fraction, rest) =>
        match readExponent? rest with
        | none => (malformed, [])
        | some (none, rest) =>
            if fraction.isEmpty then (integer negative whole, rest)
            else (decimal negative whole fraction 0, rest)
        | some (some exponent, rest) => (decimal negative whole fraction exponent, rest)

/-- A number. -/
def readNumber : List Char → Document × List Char
  | '-' :: cs => readMagnitude true cs
  | cs => readMagnitude false cs

/-- A text after its opening quote. -/
def readString (cs : List Char) : Document × List Char :=
  match readPoints? cs with
  | none => (malformed, [])
  | some (points, rest) =>
      match joinPoints? points with
      | some text => (string (String.ofList text), rest)
      | none => (unreadable, rest)

/-- A word that stands for a value. -/
def readWord (word : List Char) (value : Document) (cs : List Char) : Document × List Char :=
  if word.isPrefixOf cs then (value, cs.drop word.length) else (malformed, [])

/-- A key after its opening quote: its text if it has one; none where it is malformed. -/
def readKey? (cs : List Char) : Option (Option String × List Char) :=
  (readPoints? cs).map fun (points, rest) => ((joinPoints? points).map String.ofList, rest)

/-- A key and its colon. -/
def readLabel? (cs : List Char) : Option (Option String × List Char) :=
  match skipGap cs with
  | '"' :: rest =>
      match readKey? rest with
      | some (key, rest) =>
          match skipGap rest with
          | ':' :: rest => some (key, rest)
          | _ => none
      | none => none
  | _ => none

mutual

/-- A value at the front of a text and the text after it. -/
def read : Nat → List Char → Document × List Char
  | 0, _ => (malformed, [])
  | fuel + 1, cs =>
      match skipGap cs with
      | '"' :: rest => readString rest
      | '[' :: rest =>
          match skipGap rest with
          | ']' :: rest => (array [], rest)
          | _ =>
              let (items, rest) := readItems fuel rest
              (array items, rest)
      | '\x7b' :: rest =>
          match skipGap rest with
          | '\x7d' :: rest => (object [], rest)
          | _ =>
              let (entries, rest) := readEntries fuel rest
              (object entries, rest)
      | 'n' :: rest => readWord ['u', 'l', 'l'] null rest
      | 't' :: rest => readWord ['r', 'u', 'e'] (bool true) rest
      | 'f' :: rest => readWord ['a', 'l', 's', 'e'] (bool false) rest
      | rest => readNumber rest

/-- Items up to the closing bracket, at least one. -/
def readItems : Nat → List Char → List Document × List Char
  | 0, _ => ([malformed], [])
  | fuel + 1, cs =>
      let (item, rest) := read fuel cs
      match skipGap rest with
      | ']' :: rest => ([item], rest)
      | ',' :: rest =>
          let (items, rest) := readItems fuel rest
          (item :: items, rest)
      | _ => ([item, malformed], [])

/-- Entries up to the closing brace, at least one. -/
def readEntries : Nat → List Char → List (Option String × Document) × List Char
  | 0, _ => ([(none, malformed)], [])
  | fuel + 1, cs =>
      match readLabel? cs with
      | none => ([(none, malformed)], [])
      | some (key, rest) =>
          let (value, rest) := read fuel rest
          match skipGap rest with
          | '\x7d' :: rest => ([(key, value)], rest)
          | ',' :: rest =>
              let (entries, rest) := readEntries fuel rest
              ((key, value) :: entries, rest)
          | _ => ([(key, value), (none, malformed)], [])

end

mutual

/-- No rule of the text is broken in the document. -/
def isWellFormed : Document → Bool
  | malformed => false
  | array items => areWellFormed items
  | object entries => entriesWellFormed entries
  | _ => true

/-- No rule is broken in any of the items. -/
def areWellFormed : List Document → Bool
  | [] => true
  | item :: items => item.isWellFormed && areWellFormed items

/-- No rule is broken in any of the entries. -/
def entriesWellFormed : List (Option String × Document) → Bool
  | [] => true
  | (_, value) :: entries => value.isWellFormed && entriesWellFormed entries

end

mutual

/-- The value of a document that is nested at most `room` deep. -/
def toJson? (room : Nat) : Document → Option Json
  | null => some .null
  | bool b => some (.bool b)
  | number n => some (.number n)
  | string s => some (.string s)
  | array items =>
      if room = 0 then none else (itemsToJson? (room - 1) items).map .array
  | object entries =>
      if room = 0 then none else (entriesToJson? (room - 1) entries).map .ofMembers
  | unreadable => none
  | malformed => none

/-- The values of items. -/
def itemsToJson? (room : Nat) : List Document → Option (List Json)
  | [] => some []
  | item :: items => do
      let value ← item.toJson? room
      let values ← itemsToJson? room items
      return value :: values

/-- The members that entries stand for. -/
def entriesToJson? (room : Nat) : List (Option String × Document) → Option (List (String × Json))
  | [] => some []
  | (key, value) :: entries => do
      let name ← key
      let value ← value.toJson? room
      let members ← entriesToJson? room entries
      return (name, value) :: members

end

end Document

mutual

/-- The document of a value. -/
def Json.toDocument : Json → Document
  | .null => .null
  | .bool b => .bool b
  | .number n => .number n
  | .string s => .string s
  | .array items => .array (Json.itemDocuments items)
  | .object members => .object (Json.memberEntries members)

/-- The documents of items. -/
def Json.itemDocuments : List Json → List Document
  | [] => []
  | item :: items => item.toDocument :: Json.itemDocuments items

/-- The entries of members. -/
def Json.memberEntries : List (String × Json) → List (Option String × Document)
  | [] => []
  | (name, value) :: members => (some name, value.toDocument) :: Json.memberEntries members

end

/-- A text read as one document. -/
structure DocumentText where
  document : Document
  /-- Nothing but blanks follows the document. -/
  endsThere : Bool

namespace DocumentText

/-- How deep a document may be nested. -/
def depthLimit : Nat := 127

/-- Read a text. -/
def ofText (text : String) : DocumentText :=
  let cs := text.toList
  let (document, rest) := Document.read (cs.length + 1) cs
  ⟨document, (Document.skipGap rest).isEmpty⟩

/-- The value of a text that is one document. -/
def toJson? (text : DocumentText) : Option Json :=
  if text.endsThere then text.document.toJson? depthLimit else none

end DocumentText

/-- A value as the text of itself would be read. -/
def Json.toDocumentText (json : Json) : DocumentText :=
  ⟨json.toDocument, true⟩

end FilterSql

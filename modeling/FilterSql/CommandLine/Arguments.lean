/-
Arguments of the command line.

The first word that is not a flag names a command; the words after it are its options.
An option takes the next word as its value, or what follows an equals sign.  A value is
looked at when the next option comes, or at the end: a word that is no argument at all is
therefore reported before a value that is not right.
-/
import FilterSql.Query.Request
import FilterSql.Number.Reader
import FilterSql.Sql.Dialect

namespace FilterSql.CommandLine

/-- Why arguments are not taken; also the questions for help, which end the reading. -/
inductive ArgumentError
  | helpAsked
  | versionAsked
  | nothingAsked
  | noCommand
  | unknownCommand
  | unknownArgument
  | repeated
  | valueForFlag
  | valueMissing
  | valueInvalid
  | requiredMissing
deriving DecidableEq, Repr

/-- The options that take a value. -/
inductive ValueOption
  | schema
  | config
  | dialect
  | filter
  | sort
  | page
  | limit
  | fields
  | filterable
  | connection
deriving DecidableEq, Repr

/-- The options without a value. -/
inductive Flag
  | verbose
  | inline
  | count
  | stream
  | help
deriving DecidableEq, Repr

/-- The commands. -/
inductive Command
  | compile
  | run
deriving DecidableEq, Repr

/-- What the options of a command say. -/
structure Settings where
  schema : Option String
  config : Option String
  dialect : Option Dialect
  filters : List (String × String)
  sort : List SortSpec
  page : Option UInt64
  limit : Option UInt64
  fields : Option (List String)
  filterable : Option (List String)
  connection : Option String
  flags : List Flag

namespace Settings

/-- No option given. -/
def empty : Settings :=
  ⟨none, none, none, [], [], none, none, none, none, none, []⟩

/-- A value for an option that may be given once. -/
def once {α : Type} (before : Option α) (value : Option α) : Except ArgumentError (Option α) :=
  match before, value with
  | some _, _ => .error .repeated
  | none, some a => .ok (some a)
  | none, none => .error .valueInvalid

/-- The key and value of a filter about the first equals sign; the key must not be
blank. -/
def readFilter? (raw : String) : Option (String × String) := do
  let (key, value) ← Text.cut? '=' raw.toList
  let key := Text.trim key
  if key.isEmpty then none else return (String.ofList key, String.ofList value)

/-- The names between commas. -/
def readNames (raw : String) : List String :=
  (Text.pieces ',' raw.toList).map String.ofList

/-- Names added to those given before. -/
def moreNames (before : Option (List String)) (raw : String) : Option (List String) :=
  some (before.getD [] ++ readNames raw)

/-- Take up the value of an option. -/
def set (settings : Settings) (option : ValueOption) (raw : String) :
    Except ArgumentError Settings :=
  match option with
  | .schema => do return { settings with schema := ← once settings.schema (some raw) }
  | .config => do return { settings with config := ← once settings.config (some raw) }
  | .connection => do
      return { settings with connection := ← once settings.connection (some raw) }
  | .dialect => do
      return { settings with dialect := ← once settings.dialect (Dialect.ofName raw).toOption }
  | .page => do
      return { settings with page := ← once settings.page (Number.readUInt64? raw.toList) }
  | .limit => do
      return { settings with limit := ← once settings.limit (Number.readUInt64? raw.toList) }
  | .filter =>
      match readFilter? raw with
      | some filter => .ok { settings with filters := settings.filters ++ [filter] }
      | none => .error .valueInvalid
  | .sort =>
      match SortSpec.ofText raw with
      | .ok spec => .ok { settings with sort := settings.sort ++ [spec] }
      | .error _ => .error .valueInvalid
  | .fields => .ok { settings with fields := moreNames settings.fields raw }
  | .filterable => .ok { settings with filterable := moreNames settings.filterable raw }

/-- Take up a flag; the question for help ends the reading. -/
def raise (settings : Settings) (flag : Flag) : Except ArgumentError Settings :=
  if flag = .help then .error .helpAsked
  else if settings.flags.contains flag then .error .repeated
  else .ok { settings with flags := flag :: settings.flags }

end Settings

/-- What a word asks for by its name. -/
inductive Meaning
  | value (option : ValueOption)
  | flag (flag : Flag)
deriving DecidableEq, Repr

/-- The options of every command. -/
def sharedOptions : List (String × Meaning) :=
  [("schema", .value .schema), ("config", .value .config), ("dialect", .value .dialect),
    ("filter", .value .filter), ("sort", .value .sort), ("page", .value .page),
    ("limit", .value .limit), ("fields", .value .fields), ("filterable", .value .filterable),
    ("verbose", .flag .verbose), ("help", .flag .help)]

namespace Command

/-- The commands by name. -/
def byName : List (String × Command) :=
  [("compile", compile), ("run", run)]

/-- The options of a command. -/
def options : Command → List (String × Meaning)
  | compile => sharedOptions ++ [("inline", .flag .inline)]
  | run =>
      sharedOptions ++
        [("conn-str", .value .connection), ("count", .flag .count), ("stream", .flag .stream)]

end Command

/-- The flags of one letter. -/
def shortFlags : List (Char × Flag) :=
  [('v', .verbose), ('h', .help)]

/-- The state between two words: the settings so far, the last option with its value if
that has come, and whether two hyphens have ended the options. -/
structure Reading where
  settings : Settings
  pending : Option (ValueOption × Option String)
  ended : Bool

namespace Reading

/-- The state before the first word. -/
def start : Reading := ⟨.empty, none, false⟩

/-- Look at the pending value. -/
def settle (reading : Reading) : Except ArgumentError Settings :=
  match reading.pending with
  | none => .ok reading.settings
  | some (option, some raw) => reading.settings.set option raw
  | some (_, none) => .error .valueMissing

/-- Wait for the value of an option. -/
def await (reading : Reading) (option : ValueOption) : Except ArgumentError Reading := do
  let settings ← reading.settle
  return ⟨settings, some (option, none), reading.ended⟩

/-- Take up an option with its value. -/
def assign (reading : Reading) (option : ValueOption) (raw : String) :
    Except ArgumentError Reading := do
  let settings ← reading.settle
  return ⟨← settings.set option raw, none, reading.ended⟩

/-- Take up a flag. -/
def raise (reading : Reading) (flag : Flag) : Except ArgumentError Reading := do
  let settings ← reading.settle
  return ⟨← settings.raise flag, none, reading.ended⟩

/-- A word of two hyphens and a name, perhaps with a value after an equals sign. -/
def long (options : List (String × Meaning)) (reading : Reading) (word : List Char) :
    Except ArgumentError Reading :=
  let (name, attached) :=
    match Text.cut? '=' word with
    | some (name, raw) => (String.ofList name, some (String.ofList raw))
    | none => (String.ofList word, none)
  match options.lookup name, attached with
  | some (.value option), some raw => reading.assign option raw
  | some (.value option), none => reading.await option
  | some (.flag _), some _ => .error .valueForFlag
  | some (.flag flag), none => reading.raise flag
  | none, _ => .error .unknownArgument

/-- A word of one hyphen and flags of one letter. -/
def short (reading : Reading) : List Char → Except ArgumentError Reading
  | [] => .ok reading
  | letter :: letters =>
      match shortFlags.lookup letter with
      | some flag => do short (← reading.raise flag) letters
      | none => .error .unknownArgument

/-- A word that is no option: the value that is waited for; nothing else is expected. -/
def plain (reading : Reading) (word : String) : Except ArgumentError Reading :=
  match reading.pending with
  | some (option, none) => .ok { reading with pending := some (option, some word) }
  | _ => .error .unknownArgument

/-- Whether the next word is a value even when it starts with a hyphen. -/
def takesHyphens (reading : Reading) : Bool :=
  reading.pending == some (.sort, none)

/-- Take one word. -/
def step (options : List (String × Meaning)) (reading : Reading) (word : String) :
    Except ArgumentError Reading :=
  if reading.ended then .error .unknownArgument
  else if reading.takesHyphens then reading.plain word
  else
    match word.toList with
    | ['-', '-'] => .ok { reading with ended := true }
    | '-' :: '-' :: name => reading.long options name
    | '-' :: letter :: letters => reading.short (letter :: letters)
    | _ => reading.plain word

end Reading

/-- What a command is asked to do. -/
inductive Action
  | compile (inline : Bool)
  | run (connection : String) (count stream : Bool)
deriving DecidableEq, Repr

/-- The arguments of a call. -/
structure Invocation where
  action : Action
  verbose : Bool
  /-- The path of the model. -/
  schema : String
  /-- The path of the settings of queries. -/
  config : Option String
  dialect : Dialect
  filters : List (String × String)
  sort : List SortSpec
  page : Option UInt64
  limit : Option UInt64
  fields : Option (List String)
  filterable : Option (List String)

/-- The words of a command. -/
def readSettings (command : Command) (words : List String) : Except ArgumentError Settings := do
  let reading ← words.foldlM (Reading.step command.options) Reading.start
  reading.settle

/-- What a command does by its settings. -/
def action? (settings : Settings) : Command → Option Action
  | .compile => some (.compile (settings.flags.contains .inline))
  | .run =>
      settings.connection.map fun connection =>
        .run connection (settings.flags.contains .count) (settings.flags.contains .stream)

/-- The call of a command. -/
def invocation (verbose : Bool) (command : Command) (words : List String) :
    Except ArgumentError Invocation := do
  let settings ← readSettings command words
  match settings.schema, action? settings command with
  | some schema, some action =>
      return {
        action := action
        verbose := verbose || settings.flags.contains .verbose
        schema := schema
        config := settings.config
        dialect := settings.dialect.getD .postgres
        filters := settings.filters
        sort := settings.sort
        page := settings.page
        limit := settings.limit
        fields := settings.fields
        filterable := settings.filterable }
  | _, _ => .error .requiredMissing

/-- The words after `help` name at most one command. -/
def helpFor (words : List String) : ArgumentError :=
  match words with
  | [] => .helpAsked
  | [word] =>
      if word = "help" ∨ (Command.byName.lookup word).isSome then .helpAsked else .unknownCommand
  | _ => .unknownCommand

/-- What can be asked for before the command. -/
inductive RootFlag
  | verbose
  | help
  | version
deriving DecidableEq, Repr

/-- The flags before the command by their letters. -/
def rootLetters : List (Char × RootFlag) :=
  [('v', .verbose), ('h', .help), ('V', .version)]

/-- The flags before the command by their names. -/
def rootNames : List (String × RootFlag) :=
  [("verbose", .verbose), ("help", .help), ("version", .version)]

/-- Take up a flag before the command; the flag for more output may stand once. -/
def rootRaise (verbose : Bool) : RootFlag → Except ArgumentError Bool
  | .verbose => if verbose then .error .repeated else .ok true
  | .help => .error .helpAsked
  | .version => .error .versionAsked

/-- Take up letters before the command. -/
def rootShort (verbose : Bool) : List Char → Except ArgumentError Bool
  | [] => .ok verbose
  | letter :: letters =>
      match rootLetters.lookup letter with
      | some flag => do rootShort (← rootRaise verbose flag) letters
      | none => .error .unknownArgument

/-- Take up a name before the command; none of the flags has a value. -/
def rootLong (verbose : Bool) (word : List Char) : Except ArgumentError Bool :=
  match rootNames.lookup (String.ofList (word.takeWhile (· != '='))) with
  | some flag =>
      if word.contains '=' then .error .valueForFlag else rootRaise verbose flag
  | none => .error .unknownArgument

/-- A word after two hyphens, where no option can stand: the name of a command is out of
place there, and any other word is no command. -/
def afterHyphens (word : String) : ArgumentError :=
  if word = "help" ∨ (Command.byName.lookup word).isSome then .unknownArgument
  else .unknownCommand

/-- The words of a call, up to the command and on through its options. -/
def readFrom (verbose : Bool) : List String → Except ArgumentError Invocation
  | [] => .error (if verbose then .noCommand else .nothingAsked)
  | word :: words =>
      if word = "help" then .error (helpFor words)
      else
        match Command.byName.lookup word with
        | some command => invocation verbose command words
        | none =>
            match word.toList with
            | ['-', '-'] =>
                match words with
                | [] => .error (if verbose then .noCommand else .nothingAsked)
                | next :: _ => .error (afterHyphens next)
            | '-' :: '-' :: name => do readFrom (← rootLong verbose name) words
            | '-' :: letter :: letters => do
                readFrom (← rootShort verbose (letter :: letters)) words
            | _ => .error .unknownCommand

/-- Read the arguments of a call. -/
def read (words : List String) : Except ArgumentError Invocation :=
  readFrom false words

namespace Invocation

/-- The request that the arguments make. -/
def request (invocation : Invocation) : Request :=
  let filtered := invocation.filters.foldl
    (fun request (key, value) => request.addFilter key value) Request.empty
  let request : Request :=
    { filtered with
      sort := invocation.sort
      fields := invocation.fields
      filterable := invocation.filterable }
  if invocation.page.isSome || invocation.limit.isSome then
    request.withPage (invocation.page.getD 1) (invocation.limit.getD 0)
  else request

end Invocation

end FilterSql.CommandLine

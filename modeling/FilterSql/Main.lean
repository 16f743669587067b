/-
The program: reads its arguments and prints the query that they ask for.

Running a query needs a connection to a database, which is not part of this program.
-/
import FilterSql.CommandLine.Arguments
import FilterSql.CommandLine.Output

namespace FilterSql.CommandLine

/-- What to say about arguments that are not taken. -/
def ArgumentError.message : ArgumentError → String
  | helpAsked => usage
  | nothingAsked => usage
  | versionAsked => "smartq 0.1.0"
  | noCommand => "error: a command is required\n\n" ++ usage
  | unknownCommand => "error: unrecognized command\n\n" ++ usage
  | unknownArgument => "error: unexpected argument\n\n" ++ usage
  | repeated => "error: an argument cannot be used multiple times\n\n" ++ usage
  | valueForFlag => "error: a value was given for an argument that takes none\n\n" ++ usage
  | valueMissing => "error: a value is required for an argument\n\n" ++ usage
  | valueInvalid => "error: invalid value for an argument\n\n" ++ usage
  | requiredMissing => "error: a required argument was not provided\n\n" ++ usage
where
  usage : String :=
    "Compile filter requests into SQL\n\n" ++
    "Usage: smartq [-v] compile --schema FILE [OPTIONS] [--inline]\n" ++
    "       smartq [-v] run --conn-str TEXT --schema FILE [OPTIONS] [--count] [--stream]\n\n" ++
    "Options: --config FILE, --dialect NAME, --filter KEY=VALUE, --sort COLUMN,\n" ++
    "         --page N, --limit N, --fields NAMES, --filterable NAMES"

/-- Whether arguments were answered rather than refused. -/
def ArgumentError.isAnswer : ArgumentError → Bool
  | helpAsked => true
  | versionAsked => true
  | _ => false

/-- What compiling prints, given the texts of the files. -/
def compiled (invocation : Invocation) (inline : Bool) (schema : String)
    (config : Option String) : Except String String := do
  let model ← (Schema.ofDocument (.ofText schema)).mapError fun error =>
    "Invalid model schema: " ++ error.message?.getD "not a schema"
  let settings ←
    match config with
    | none => pure Config.standard
    | some text =>
        (Decoder.decode (Config.decode (ε := Empty)) (.ofText text)).mapError fun _ =>
          "Invalid engine config"
  let query ← (Query.ofRequest model invocation.request settings invocation.dialect).mapError
    QueryError.message
  return printedQuery query inline

/-- Do what the arguments ask for; the answer is the exit code. -/
def perform (invocation : Invocation) : IO UInt32 := do
  match invocation.action with
  | .run _ _ _ =>
      (← IO.getStderr).putStrLn "Error: no database can be reached from here"
      return 1
  | .compile inline =>
      let schema ← IO.FS.readFile invocation.schema
      let config ←
        match invocation.config with
        | none => pure none
        | some path => some <$> IO.FS.readFile path
      match compiled invocation inline schema config with
      | .ok text =>
          (← IO.getStdout).putStr text
          return 0
      | .error text =>
          (← IO.getStderr).putStrLn ("Error: " ++ text)
          return 1

end FilterSql.CommandLine

/-- Run the program on its arguments. -/
def main (arguments : List String) : IO UInt32 := do
  match FilterSql.CommandLine.read arguments with
  | .ok invocation => FilterSql.CommandLine.perform invocation
  | .error error =>
      if error.isAnswer then
        (← IO.getStdout).putStrLn error.message
        return 0
      else
        (← IO.getStderr).putStrLn error.message
        return 2

import HedgedStore.Command.Grammar

/-! What the program can be called for. -/
namespace HedgedStore.Command

def programName : String := "ctlog-s3"

def programVersion : String := "0.1.0"

inductive Task where
  | put (key file : String) (contentType : Option String) (compress immutable : Bool)
  | get (key : String) (output : Option String)
  | list (start : String)
  | copy (source target : String)
  | remove (key : String)
deriving DecidableEq, Repr

structure Invocation where
  config : String := "config.yaml"
  logLevel : Option String := none
  jsonLogs : Bool := false
  metrics : Bool := false
  task : Task
deriving DecidableEq, Repr

def mainHelp : String :=
  "Hedged S3-compatible object storage backend for Certificate Transparency log sequencers\n" ++
  "\n" ++
  "Usage: ctlog-s3 [OPTIONS] <COMMAND>\n" ++
  "\n" ++
  "Commands:\n" ++
  "  put   Upload a file\n" ++
  "  get   Download an object to stdout or a file\n" ++
  "  ls    List keys under a prefix\n" ++
  "  cp    Copy an object\n" ++
  "  rm    Delete an object\n" ++
  "  help  Print this message or the help of the given subcommand(s)\n" ++
  "\n" ++
  "Options:\n" ++
  "  -c, --config <CONFIG>        Path to configuration file [default: config.yaml]\n" ++
  "  -l, --log-level <LOG_LEVEL>  Log level (trace, debug, info, warn, error); " ++
    "overrides the config file\n" ++
  "      --json-logs              Emit logs as JSON\n" ++
  "      --metrics                " ++
    "Print collected metrics in Prometheus text format when done\n" ++
  "  -h, --help                   Print help\n" ++
  "  -V, --version                Print version\n"

def mainGrammar : Grammar :=
  { switches := [
      { long := "config", short := some 'c', value := some { name := "CONFIG", kind := .path } },
      { long := "log-level", short := some 'l', value := some { name := "LOG_LEVEL" } },
      { long := "json-logs" },
      { long := "metrics" }]
    commands := ["put", "get", "ls", "cp", "rm", "help"]
    help := mainHelp
    version := some (programName ++ " " ++ programVersion ++ "\n") }

def putGrammar : Grammar :=
  { switches := [
      { long := "content-type", value := some { name := "CONTENT_TYPE" } },
      { long := "compress" },
      { long := "immutable" }]
    places := [{ name := "KEY" }, { name := "FILE", kind := .path }]
    required := 2
    help :=
      "Upload a file\n\nUsage: ctlog-s3 put [OPTIONS] <KEY> <FILE>\n\n" ++
      "Arguments:\n  <KEY>   \n  <FILE>  \n\n" ++
      "Options:\n" ++
      "      --content-type <CONTENT_TYPE>  \n" ++
      "      --compress                     \n" ++
      "      --immutable                    \n" ++
      "  -h, --help                         Print help\n" }

def getGrammar : Grammar :=
  { switches := [
      { long := "output", short := some 'o', value := some { name := "OUTPUT", kind := .path } }]
    places := [{ name := "KEY" }]
    required := 1
    help :=
      "Download an object to stdout or a file\n\nUsage: ctlog-s3 get [OPTIONS] <KEY>\n\n" ++
      "Arguments:\n  <KEY>  \n\n" ++
      "Options:\n" ++
      "  -o, --output <OUTPUT>  \n" ++
      "  -h, --help             Print help\n" }

def listGrammar : Grammar :=
  { places := [{ name := "PREFIX" }]
    help :=
      "List keys under a prefix\n\nUsage: ctlog-s3 ls [PREFIX]\n\n" ++
      "Arguments:\n  [PREFIX]  [default: ]\n\nOptions:\n  -h, --help  Print help\n" }

def copyGrammar : Grammar :=
  { places := [{ name := "FROM" }, { name := "TO" }]
    required := 2
    help :=
      "Copy an object\n\nUsage: ctlog-s3 cp <FROM> <TO>\n\n" ++
      "Arguments:\n  <FROM>  \n  <TO>    \n\nOptions:\n  -h, --help  Print help\n" }

def removeGrammar : Grammar :=
  { places := [{ name := "KEY" }]
    required := 1
    help :=
      "Delete an object\n\nUsage: ctlog-s3 rm <KEY>\n\n" ++
      "Arguments:\n  <KEY>  \n\nOptions:\n  -h, --help  Print help\n" }

def helpHelp : String :=
  "Print this message or the help of the given subcommand(s)\n\n" ++
  "Usage: ctlog-s3 help [COMMAND]...\n\n" ++
  "Arguments:\n  [COMMAND]...  Print help for the subcommand(s)\n"

def readTask (command : String) (words : List String) : Except Stop Task := do
  let value (found : List (String × String)) (name : String) := (found.lookup name).getD ""
  let on (found : List (String × String)) (name : String) := (found.lookup name).isSome
  match command with
  | "put" => do
    let found ← readCommand putGrammar words
    return .put (value found "KEY") (value found "FILE") (found.lookup "content-type")
      (on found "compress") (on found "immutable")
  | "get" => do
    let found ← readCommand getGrammar words
    return .get (value found "KEY") (found.lookup "output")
  | "ls" => do
    let found ← readCommand listGrammar words
    return .list (value found "PREFIX")
  | "cp" => do
    let found ← readCommand copyGrammar words
    return .copy (value found "FROM") (value found "TO")
  | _ => do
    let found ← readCommand removeGrammar words
    return .remove (value found "KEY")

def helpFor : List String → Stop
  | [] => .tell mainHelp
  | [command] =>
    match command with
    | "put" => .tell putGrammar.help
    | "get" => .tell getGrammar.help
    | "ls" => .tell listGrammar.help
    | "cp" => .tell copyGrammar.help
    | "rm" => .tell removeGrammar.help
    | "help" => .tell helpHelp
    | other => .error (.unknownCommand other)
  | command :: next :: _ =>
    if mainGrammar.commands.contains command then .error (.unknownCommand next)
    else .error (.unknownCommand command)

def readInvocation (words : List String) : Except Stop Invocation := do
  let (reading, command) ← readWords mainGrammar {} words
  match command with
  | some ("help", names) => throw (helpFor names)
  | some (command, rest) => do
    let task ← readTask command rest
    let found := (← reading.settle).found
    return {
      config := (found.lookup "config").getD "config.yaml"
      logLevel := found.lookup "log-level"
      jsonLogs := (found.lookup "json-logs").isSome
      metrics := (found.lookup "metrics").isSome
      task }
  | none => do
    let found := (← reading.settle).found
    if found.isEmpty then throw (.guide mainHelp) else throw (.error .missingCommand)

def UsageError.message : UsageError → String
  | .unexpectedArgument word => "unexpected argument '" ++ word ++ "' found"
  | .unknownCommand word => "unrecognized subcommand '" ++ word ++ "'"
  | .missingCommand =>
    "'" ++ programName ++ "' requires a subcommand but one was not provided"
  | .missingValue shown =>
    "a value is required for '" ++ shown ++ "' but none was supplied"
  | .repeated shown => "the argument '" ++ shown ++ "' cannot be used multiple times"
  | .unexpectedValue value shown =>
    "unexpected value '" ++ value ++ "' for '" ++ shown ++ "' found; no more were expected"
  | .missingArguments _ => "the following required arguments were not provided:"

def UsageError.report (why : UsageError) : String :=
  let names := match why with
    | .missingArguments names => String.join (names.map fun name => "  <" ++ name ++ ">\n")
    | _ => ""
  "error: " ++ why.message ++ "\n" ++ names ++ "\nFor more information, try '--help'.\n"

end HedgedStore.Command

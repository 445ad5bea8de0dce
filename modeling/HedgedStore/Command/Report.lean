import HedgedStore.Backend.Failure
import HedgedStore.Command.Invocation
import HedgedStore.Config.Load
import HedgedStore.LogFilter
import HedgedStore.Summary.Basic

/-! What the program says when it cannot do what it was called for: a line about what went wrong,
and then what lies behind it, one cause behind the other. -/
namespace HedgedStore.Command

inductive ProgramError where
  | usage (why : UsageError)
  /-- It was called for nothing and gives its help. -/
  | guide (text : String)
  | config (path : String) (why : ConfigError)
  | filter (why : LogFilter.Fault)
  | backend (failure : Failure)
  | unreadable (path : String) (why : FileFault)
  | unwritable (path : String) (why : FileFault)
  | clock (why : Summary.Fault)
deriving DecidableEq, Repr

namespace ProgramError

def exitCode : ProgramError → Nat
  | .usage _ | .guide _ => 2
  | .filter .splitCharacter => 101
  | _ => 1

/-- What went wrong, and the causes behind it. -/
def chain : ProgramError → List String
  | .usage why => [why.message]
  | .guide text => [text]
  | .config path why =>
    ["failed to load " ++ Text.quotePath path, why.message] ++ why.cause.toList
  | .filter why => why.message :: why.causes
  | .backend failure => failure.message :: failure.cause.toList
  | .unreadable path why => ["failed to read " ++ Text.quotePath path, why.message]
  | .unwritable path why => ["failed to write " ++ Text.quotePath path, why.message]
  | .clock why => [why.message]

/-- A text whose further lines are indented by so many blanks. -/
def hanging (blanks : Nat) (text : String) : String :=
  ("\n" ++ String.ofList (List.replicate blanks ' ')).intercalate (text.splitOn "\n")

/-- The lines of a chain. Causes are numbered where there are several. -/
def lines : List String → List String
  | [] => []
  | [what] => ["Error: " ++ what]
  | [what, cause] => ["Error: " ++ what, "", "Caused by:", "    " ++ hanging 4 cause]
  | what :: causes =>
    ["Error: " ++ what, "", "Caused by:"] ++
      causes.mapIdx fun i cause => "    " ++ toString i ++ ": " ++ hanging 7 cause

def report (error : ProgramError) : String :=
  match error with
  | .usage why => why.report
  | .guide text => text
  | error => String.join ((lines error.chain).map (· ++ "\n"))

end ProgramError

end HedgedStore.Command

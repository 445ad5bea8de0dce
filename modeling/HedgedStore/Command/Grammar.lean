/-! The words of a command line. A command takes switches, some of which have a value, and values
by their place; the main command takes a further command, which reads the words that are left. A
value that may stand in a word of its own is settled only when the next word has been looked at. -/
namespace HedgedStore.Command

inductive ValueKind where
  | text
  /-- The name of a file, which is not empty. -/
  | path
deriving DecidableEq, Repr

/-- What can be given a value, by a name or by its place. -/
structure Parameter where
  name : String
  kind : ValueKind := .text
deriving DecidableEq, Repr

structure Switch where
  long : String
  short : Option Char := none
  /-- The value that follows; a switch without one is on or off. -/
  value : Option Parameter := none
deriving DecidableEq, Repr

def Switch.shown (switch : Switch) : String :=
  match switch.value with
  | some value => "--" ++ switch.long ++ " <" ++ value.name ++ ">"
  | none => "--" ++ switch.long

structure Grammar where
  switches : List Switch := []
  /-- The values by place; those that may be missing come last. -/
  places : List Parameter := []
  required : Nat := 0
  commands : List String := []
  help : String
  /-- What is said about the version, if it can be asked for. -/
  version : Option String := none

inductive UsageError where
  | unexpectedArgument (word : String)
  | unknownCommand (word : String)
  | missingCommand
  | missingValue (shown : String)
  | repeated (shown : String)
  | unexpectedValue (value shown : String)
  | missingArguments (names : List String)
deriving DecidableEq, Repr

/-- Why reading stops before the words are understood. -/
inductive Stop where
  | error (why : UsageError)
  /-- Something was asked for instead of a command. -/
  | tell (text : String)
  /-- Nothing was asked for at all. -/
  | guide (text : String)
deriving DecidableEq, Repr

inductive Taker where
  | named (switch : Switch)
  | placed (parameter : Parameter)
deriving DecidableEq, Repr

def Taker.shown : Taker → String
  | .named switch => switch.shown
  | .placed parameter => "<" ++ parameter.name ++ ">"

def Taker.name : Taker → String
  | .named switch => switch.long
  | .placed parameter => parameter.name

def Taker.kind : Taker → ValueKind
  | .named switch => (switch.value.map (·.kind)).getD .text
  | .placed parameter => parameter.kind

structure Reading where
  /-- What is settled: names with values. -/
  found : List (String × String) := []
  /-- What waits for its value, or has one that is not settled. -/
  pending : Option (Taker × Option String) := none
  filled : Nat := 0
  /-- All that follows is values. -/
  trailing : Bool := false

namespace Reading

def give (reading : Reading) (taker : Taker) (value : Option String) : Except Stop Reading :=
  match value with
  | none => .error (.error (.missingValue taker.shown))
  | some value =>
    if (reading.found.lookup taker.name).isSome then .error (.error (.repeated taker.shown))
    else if taker.kind = .path ∧ value.isEmpty then
      .error (.error (.missingValue taker.shown))
    else .ok { reading with found := reading.found ++ [(taker.name, value)] }

def settle (reading : Reading) : Except Stop Reading :=
  match reading.pending with
  | none => .ok reading
  | some (taker, value) => give { reading with pending := none } taker value

/-- A word is awaited as the value of a switch. -/
def awaits? (reading : Reading) : Option Taker :=
  match reading.pending with
  | some (taker, none) => some taker
  | _ => none

def turnOn (reading : Reading) (switch : Switch) : Except Stop Reading := do
  let reading ← reading.settle
  if (reading.found.lookup switch.long).isSome then throw (.error (.repeated switch.shown))
  return { reading with found := reading.found ++ [(switch.long, "")] }

/-- A switch with a value, in the same word or in the next one. -/
def takeValue (reading : Reading) (switch : Switch) (attached : Option String) :
    Except Stop Reading := do
  let reading ← reading.settle
  match attached with
  | some value => reading.give (.named switch) (some value)
  | none => return { reading with pending := some (.named switch, none) }

/-- Asked for help or for the version; what is pending is settled first. -/
def telling {α : Type} (reading : Reading) (text : String) : Except Stop α := do
  let _ ← reading.settle
  throw (.tell text)

/-- Splits at the first equals sign. -/
def splitEquals (word : List Char) : List Char × Option String :=
  match word.dropWhile (· != '=') with
  | [] => (word, none)
  | _ :: value => (word.takeWhile (· != '='), some (String.ofList value))

/-- Reads a word that begins with two hyphens, without them. -/
def long (grammar : Grammar) (reading : Reading) (word : List Char) : Except Stop Reading :=
  let (name, value) := splitEquals word
  let name := String.ofList name
  let plain (shown : String) (act : Except Stop Reading) : Except Stop Reading :=
    match value with
    | some value => throw (.error (.unexpectedValue value shown))
    | none => act
  match grammar.switches.find? (·.long == name) with
  | some switch =>
    match switch.value with
    | some _ => reading.takeValue switch value
    | none => plain switch.shown (reading.turnOn switch)
  | none =>
    match name, grammar.version with
    | "help", _ => plain "--help" (reading.telling grammar.help)
    | "version", some version => plain "--version" (reading.telling version)
    | _, _ => throw (.error (.unexpectedArgument ("--" ++ name)))

/-- Reads the letters behind one hyphen. The rest behind a letter that takes a value is its
value. -/
def short (grammar : Grammar) (reading : Reading) : List Char → Except Stop Reading
  | [] => .ok reading
  | c :: rest =>
    match grammar.switches.find? (·.short == some c) with
    | some switch =>
      match switch.value with
      | none => do short grammar (← reading.turnOn switch) rest
      | some _ =>
        let attached := match rest with
          | [] => none
          | '=' :: value => some (String.ofList value)
          | value => some (String.ofList value)
        reading.takeValue switch attached
    | none =>
      match c, grammar.version with
      | 'h', _ => reading.telling grammar.help
      | 'V', some version => reading.telling version
      | _, _ => throw (.error (.unexpectedArgument (String.ofList ['-', c])))

def place (grammar : Grammar) (reading : Reading) (word : String) : Except Stop Reading :=
  match grammar.places[reading.filled]? with
  | some parameter => do
    let reading ← reading.settle
    return { reading with
      pending := some (.placed parameter, some word), filled := reading.filled + 1 }
  | none =>
    if grammar.commands.isEmpty || (reading.trailing && grammar.commands.contains word) then
      throw (.error (.unexpectedArgument word))
    else throw (.error (.unknownCommand word))

def word (grammar : Grammar) (reading : Reading) (s : String) : Except Stop Reading :=
  if reading.trailing then reading.place grammar s
  else
    match s.toList with
    | ['-', '-'] => .ok { reading with trailing := true }
    | '-' :: '-' :: name => reading.long grammar name
    | '-' :: c :: letters => reading.short grammar (c :: letters)
    | _ =>
      match reading.awaits? with
      | some taker => .ok { reading with pending := some (taker, some s) }
      | none => reading.place grammar s

end Reading

/-- Reads words up to a command, and gives the command with the words behind it. -/
def readWords (grammar : Grammar) (reading : Reading) :
    List String → Except Stop (Reading × Option (String × List String))
  | [] => .ok (reading, none)
  | s :: rest =>
    if grammar.commands.contains s && !reading.trailing && reading.awaits?.isNone then
      .ok (reading, some (s, rest))
    else do readWords grammar (← reading.word grammar s) rest

/-- All required places are filled. -/
def checkPlaces (grammar : Grammar) (reading : Reading) : Except Stop Unit :=
  let missing := (grammar.places.take grammar.required).drop reading.filled
  if missing.isEmpty then .ok ()
  else .error (.error (.missingArguments (missing.map (·.name))))

def readCommand (grammar : Grammar) (words : List String) :
    Except Stop (List (String × String)) := do
  let (reading, _) ← readWords grammar {} words
  let reading ← reading.settle
  checkPlaces grammar reading
  return reading.found

end HedgedStore.Command

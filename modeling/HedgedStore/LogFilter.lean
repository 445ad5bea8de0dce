import HedgedStore.Log
import HedgedStore.Number.Decimal
import HedgedStore.Text.Pattern

/-! Which events are shown. A filter is a list of directives, separated by commas: a level, or a
part of the program, or a part with a level. The directive with the longest part that an event's
own begins with decides; where none fits the event is not shown. -/
namespace HedgedStore

/-- How grave an event must be to be shown; nothing is grave enough for `off`. -/
inductive Threshold where
  | off
  | atLeast (level : Level)
deriving DecidableEq, Inhabited, Repr

def Level.gravity : Level → Nat
  | trace => 0
  | debug => 1
  | info => 2
  | warn => 3
  | error => 4

namespace Threshold

def admits (threshold : Threshold) (level : Level) : Bool :=
  match threshold with
  | off => false
  | atLeast least => decide (least.gravity ≤ level.gravity)

/-- A natural number, a plus sign in front of it or not. -/
def number? (s : List Char) : Option Nat :=
  let digits := if s.head? = some '+' then s.drop 1 else s
  if digits.all Char.isDigit then (String.ofList digits).toNat? else none

/-- A threshold by its number or its name, in capitals or not; no text asks for errors. -/
def parse? (s : List Char) : Option Threshold :=
  match number? s with
  | some 0 => some off
  | some 1 => some (atLeast .error)
  | some 2 => some (atLeast .warn)
  | some 3 => some (atLeast .info)
  | some 4 => some (atLeast .debug)
  | some 5 => some (atLeast .trace)
  | _ =>
    match String.ofList (s.map Char.toLower) with
    | "" | "error" => some (atLeast .error)
    | "warn" => some (atLeast .warn)
    | "info" => some (atLeast .info)
    | "debug" => some (atLeast .debug)
    | "trace" => some (atLeast .trace)
    | "off" => some off
    | _ => none

end Threshold

namespace LogFilter

inductive Fault where
  | directive
  | level
  /-- A word would begin or end within a character. -/
  | splitCharacter
  /-- What a field is to match is no pattern. -/
  | pattern (text : String) (flaw : Text.Pattern.Flaw)
deriving DecidableEq, Repr

def Fault.message : Fault → String
  | .directive => "invalid filter directive"
  | .level => "error parsing level filter: expected one of \"off\", \"error\", \"warn\", " ++
      "\"info\", \"debug\", \"trace\", or a number 0-5"
  | .splitCharacter => "a word of the filter begins or ends within a character"
  | .pattern text flaw => "invalid field filter: " ++ (flaw.causes text).headD ""

def Fault.causes : Fault → List String
  | .directive | .splitCharacter => []
  | .level => [Fault.level.message]
  | .pattern text flaw => flaw.causes text

structure Directive where
  threshold : Threshold := .atLeast .trace
  /-- The parts of the program it is about begin like this. -/
  target : Option String := none
  span : Option String := none
  /-- The fields that an event or span must have, with a value or not. -/
  fields : List String := []
deriving DecidableEq, Inhabited, Repr

/-- Where the reading of a directive stands. Places count the bytes before them. -/
inductive Stage where
  | start
  | levelOrTarget (start : Nat)
  | span (start : Nat)
  | field (start : Nat)
  | fields
  | target
  | level (start : Nat)
deriving DecidableEq, Repr

/-- What follows the first bytes, unless they end within a character. -/
def behind : Nat → List Char → Except Fault (List Char)
  | 0, s => .ok s
  | _ + 1, [] => .error .splitCharacter
  | bytes + 1, c :: rest =>
    if c.utf8Size ≤ bytes + 1 then behind (bytes + 1 - c.utf8Size) rest
    else .error .splitCharacter

/-- The characters of the first bytes, unless these end within one. -/
def before : Nat → List Char → Except Fault (List Char)
  | 0, _ => .ok []
  | _ + 1, [] => .error .splitCharacter
  | bytes + 1, c :: rest =>
    if c.utf8Size ≤ bytes + 1 then return c :: (← before (bytes + 1 - c.utf8Size) rest)
    else .error .splitCharacter

def between (s : List Char) (start stop : Nat) : Except Fault String := do
  return String.ofList (← before (stop - start) (← behind start s))

def mayStart (c : Char) : Bool :=
  c == '-' || c == ':' || c == '_' || Text.isAlphanumeric c

/-- A number, one of the names of infinity and of NaN included. -/
def isNumber (s : String) : Bool :=
  let unsigned := match s.toList with
    | '+' :: rest | '-' :: rest => rest
    | cs => cs
  (Binary64.ofText? s).isSome ||
    ["inf", "infinity", "nan"].contains (String.ofList (unsigned.map Char.toLower))

/-- What is wrong with the value of a field. A value is a number or a pattern. -/
def valueFault? (field : String) : Option Fault :=
  match field.splitOn "=" with
  | _ :: value :: _ =>
    if isNumber value then none else (Text.Pattern.flaw? value).map (.pattern value)
  | _ => none

/-- A field of a span, which must have a name. -/
def addField (s : List Char) (start stop : Nat) (d : Directive) : Except Fault Directive := do
  let field ← between s start stop
  if field.isEmpty then throw .directive
  if let some fault := valueFault? field then throw fault
  return { d with fields := d.fields ++ [field] }

def stageStep (s : List Char) (place : Nat) (c : Char) (d : Directive) :
    Stage → Except Fault (Directive × Stage)
  | .start =>
    if c = '[' then .ok (d, .span (place + 1))
    else if mayStart c then .ok (d, .levelOrTarget place)
    else .error .directive
  | .levelOrTarget start =>
    if c = '=' || c = '[' then do
      let target ← between s start place
      let next := if c = '=' then Stage.level (place + 1) else .span (place + 1)
      return ({ d with target := some target }, next)
    else .ok (d, .levelOrTarget start)
  | .span start =>
    if c = ']' then do
      return ({ d with span := some (← between s start place) }, .target)
    else if c = '\x7b' then do
      let name ← between s start place
      return ({ d with span := if name.isEmpty then none else some name }, .field (place + 1))
    else .ok (d, .span start)
  | .field start =>
    if c = '\x7d' then (addField s start place d).map fun d => (d, .fields)
    else if c = ',' then (addField s start place d).map fun d => (d, .field (place + 1))
    else .ok (d, .field start)
  | .fields => if c = ']' then .ok (d, .target) else .error .directive
  | .target => if c = '=' then .ok (d, .level (place + 1)) else .error .directive
  | .level start => .ok (d, .level start)

def finish (s : List Char) (d : Directive) : Stage → Except Fault Directive
  | .levelOrTarget start => do
    let word ← behind start s
    if word.isEmpty then return d
    match Threshold.parse? word with
    | some threshold => return { d with threshold }
    | none => return { d with target := some (String.ofList word) }
  | .level start => do
    let word ← behind start s
    if word.isEmpty then return d
    match Threshold.parse? word with
    | some threshold => return { d with threshold }
    | none => throw .level
  | .target => .ok d
  | _ => .error .directive

/-- Reads the characters in turn. What is kept of them is taken from `s` by place. -/
def readFrom (s : List Char) (place : Nat) (d : Directive) (stage : Stage) :
    List Char → Except Fault Directive
  | [] => finish s d stage
  | c :: rest => do
    let (d, stage) ← stageStep s place c d stage
    readFrom s (place + c.utf8Size) d stage rest

/-- Reads one directive. Blanks around it are passed over when places are counted, not when the
words at those places are taken. -/
def readDirective (s : List Char) : Except Fault Directive :=
  readFrom s 0 {} .start (Text.trim (String.ofList s)).toList

def pieces : List Char → List (List Char)
  | [] => [[]]
  | c :: rest =>
    match c, pieces rest with
    | ',', later => [] :: later
    | c, piece :: later => (c :: piece) :: later
    | c, [] => [[c]]

/-- It bears on events by their own part and fields. -/
def Directive.isForEvents (d : Directive) : Bool :=
  d.span.isNone && d.fields.all fun field => !field.toList.contains '='

/-- The more a directive says about an event, the earlier it is asked. Of two that say as much the
one with the greater words goes first. -/
def Directive.isBefore (a b : Directive) : Bool :=
  let reach (d : Directive) : Nat := (d.target.map fun target => target.utf8ByteSize + 1).getD 0
  if reach a ≠ reach b then decide (reach b < reach a)
  else if a.fields.length ≠ b.fields.length then decide (b.fields.length < a.fields.length)
  else if a.target ≠ b.target then decide (b.target.getD "" < a.target.getD "")
  else !decide (a.fields < b.fields)

/-- Of directives about the same thing the last one stays. -/
def latest : List Directive → List Directive
  | [] => []
  | d :: rest =>
    let later := latest rest
    if later.any fun e => e.target == d.target && e.fields == d.fields then later else d :: later

def Directive.fits (d : Directive) (e : LogEvent) : Bool :=
  d.target.all (fun target => target.toList.isPrefixOf e.target.toList) &&
    d.fields.all fun field => field == "message" || e.hasField field

end LogFilter

/-- The directives in the order in which they are asked. -/
structure LogFilter where
  directives : List LogFilter.Directive
deriving DecidableEq, Inhabited, Repr

namespace LogFilter

/-- Reads a filter. One that says nothing shows errors. -/
def parse (s : String) : Except Fault LogFilter := do
  let written := (pieces s.toList).filter fun piece => !piece.isEmpty
  let directives ← written.mapM readDirective
  if directives.isEmpty then return ⟨[{ threshold := .atLeast .error }]⟩
  else return ⟨(latest (directives.filter Directive.isForEvents)).mergeSort Directive.isBefore⟩

def admits (filter : LogFilter) (e : LogEvent) : Bool :=
  match filter.directives.find? fun d => d.fits e with
  | some d => d.threshold.admits e.level
  | none => false

end LogFilter

end HedgedStore

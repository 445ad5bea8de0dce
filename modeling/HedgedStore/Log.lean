import HedgedStore.Duration

/-! What the library tells its log: events with a message and fields, inside spans. -/
namespace HedgedStore

inductive LogValue where
  /-- A text that lines show between quotation marks. -/
  | text (s : String)
  /-- A text that lines show as it is. -/
  | plain (s : String)
  | flag (b : Bool)
  | count (n : Nat)
  | duration (d : Duration)
deriving DecidableEq, Repr

/-- From the finest to the gravest. -/
inductive Level where
  | trace
  | debug
  | info
  | warn
  | error
deriving DecidableEq, Inhabited, Repr

def Level.name : Level → String
  | trace => "TRACE"
  | debug => "DEBUG"
  | info => "INFO"
  | warn => "WARN"
  | error => "ERROR"

abbrev LogFields := List (String × LogValue)

structure LogEvent where
  level : Level
  target : String
  message : String
  fields : LogFields := []
  /-- The spans around the event, innermost first. -/
  spans : List (String × LogFields) := []
deriving DecidableEq, Repr

namespace LogEvent

def debug (target message : String) (fields : LogFields) : LogEvent :=
  { level := .debug, target, message, fields }

def within (e : LogEvent) (span : String) (fields : LogFields) : LogEvent :=
  { e with spans := e.spans ++ [(span, fields)] }

def hasField (e : LogEvent) (name : String) : Bool := e.fields.any (·.1 == name)

end LogEvent

end HedgedStore

import HedgedStore.Log
import HedgedStore.Text.Quoted

/-! The log as lines. A line of plain text has the level, the spans around the event from the
outermost in, the part of the program, the message, and the fields; a line of JSON is one object. -/
namespace HedgedStore

def LogValue.inLine : LogValue → String
  | .text s => Text.quote s
  | .plain s => s
  | .flag b => if b then "true" else "false"
  | .count n => toString n
  | .duration d => d.text

/-- Fields with their values, a blank between each two. -/
def fieldText (fields : LogFields) : String :=
  " ".intercalate (fields.map fun field => field.1 ++ "=" ++ field.2.inLine)

/-- How a character of a message stands in a line. One that could begin a command to the reader's
terminal is written by its number. -/
def messageChar (c : Char) : String :=
  let n := c.toNat
  if n == 0x07 || n == 0x08 || n == 0x0c || n == 0x1b || n == 0x7f then
    "\\x" ++ String.ofList [Nat.digitChar (n / 16), Nat.digitChar (n % 16)]
  else if 0x80 ≤ n && n ≤ 0x9f then "\\u\x7b" ++ String.ofList (Text.hexDigits n) ++ "\x7d"
  else c.toString

def spanText (span : String × LogFields) : String :=
  if span.2.isEmpty then span.1 ++ ":" else span.1 ++ "\x7b" ++ fieldText span.2 ++ "\x7d:"

namespace LogEvent

def line (e : LogEvent) : String :=
  let spans := String.join (e.spans.reverse.map spanText)
  let spans := if spans.isEmpty then "" else spans ++ " "
  let fields := if e.fields.isEmpty then "" else " " ++ fieldText e.fields
  e.level.name ++ " " ++ spans ++ e.target ++ ": " ++
    String.join (e.message.toList.map messageChar) ++ fields

end LogEvent

/-- How a character stands in a string of JSON. -/
def jsonChar (c : Char) : String :=
  if c == '"' then "\\\""
  else if c == '\\' then "\\\\"
  else if c == '\n' then "\\n"
  else if c == '\r' then "\\r"
  else if c == '\t' then "\\t"
  else if c.toNat < 0x20 then
    "\\u00" ++ String.ofList [Nat.digitChar (c.toNat / 16), Nat.digitChar (c.toNat % 16)]
  else c.toString

def jsonString (s : String) : String := "\"" ++ String.join (s.toList.map jsonChar) ++ "\""

def jsonObject (entries : List (String × String)) : String :=
  let entries := entries.map fun entry => jsonString entry.1 ++ ":" ++ entry.2
  "\x7b" ++ ",".intercalate entries ++ "\x7d"

def LogValue.json : LogValue → String
  | .text s | .plain s => jsonString s
  | .flag b => if b then "true" else "false"
  | .count n => toString n
  | .duration d => jsonString d.text

def LogEvent.json (e : LogEvent) : String :=
  let fields := ("message", jsonString e.message) :: e.fields.map fun field =>
    (field.1, field.2.json)
  jsonObject [("level", jsonString e.level.name), ("fields", jsonObject fields),
    ("target", jsonString e.target)]

end HedgedStore

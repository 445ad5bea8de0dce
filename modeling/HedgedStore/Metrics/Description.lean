/-! What a metric is called and which labels its series carry. -/
namespace HedgedStore

structure Description where
  name : String
  help : String
  /-- The names of the labels, in the order in which their values are given. -/
  labels : List String := []
deriving DecidableEq, Inhabited, Repr

namespace Description

inductive Fault where
  | emptyHelp
  | metricName (name : String)
  | labelName (name : String)
  | repeatedLabel (name : String)
deriving DecidableEq, Repr

def Fault.message : Fault → String
  | .emptyHelp => "empty help string"
  | .metricName name => "'" ++ name ++ "' is not a valid metric name"
  | .labelName name => "'" ++ name ++ "' is not a valid label name"
  | .repeatedLabel name => "duplicate variable label name " ++ name

def startsLabelName (c : Char) : Bool := c.isAlpha || c == '_'

def startsMetricName (c : Char) : Bool := startsLabelName c || c == ':'

/-- A character that may start it, and then such characters and digits. -/
def isName (starts : Char → Bool) (s : String) : Bool :=
  match s.toList with
  | first :: rest => starts first && rest.all fun c => starts c || c.isDigit
  | [] => false

/-- The first label that is no name or has come before. -/
def labelFault? (before : List String) : List String → Option Fault
  | [] => none
  | label :: rest =>
    if !isName startsLabelName label then some (.labelName label)
    else if before.contains label then some (.repeatedLabel label)
    else labelFault? (label :: before) rest

/-- The first thing that is wrong: the help, the name, then the labels in order. -/
def fault? (d : Description) : Option Fault :=
  if d.help.isEmpty then some .emptyHelp
  else if !isName startsMetricName d.name then some (.metricName d.name)
  else labelFault? [] d.labels

/-- The labels with their values, sorted by name. -/
def named (d : Description) (values : List String) : List (String × String) :=
  (d.labels.zip values).mergeSort fun a b => decide (a.1 < b.1) || (a.1 == b.1 && !decide (b.2 < a.2))

end Description

end HedgedStore

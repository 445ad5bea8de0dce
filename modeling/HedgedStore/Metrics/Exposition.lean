import HedgedStore.Metrics.Family
import HedgedStore.Number.Decimal

/-! The text in which metrics are handed to a collector: families by name, a help and a type line
for each, then a line for each number. Of a summary these are its quantiles, told apart by a
label of their own that comes last, its sum and its count. -/
namespace HedgedStore.Exposition

/-- A backslash and the end of a line are written with a backslash. -/
def escapeHelp (s : String) : String :=
  String.join (s.toList.map fun c =>
    if c == '\\' then "\\\\" else if c == '\n' then "\\n" else c.toString)

/-- In the value of a label a quotation mark is written with a backslash, too. -/
def escapeValue (s : String) : String :=
  String.join (s.toList.map fun c =>
    if c == '\\' then "\\\\" else if c == '\n' then "\\n" else if c == '"' then "\\\""
    else c.toString)

/-- The labels in braces; none, no braces. -/
def labelText (labels : List (String × String)) : String :=
  if labels.isEmpty then ""
  else
    let pairs := labels.map fun label => label.1 ++ "=\"" ++ escapeValue label.2 ++ "\""
    "\x7b" ++ ",".intercalate pairs ++ "\x7d"

/-- One number: what it is, its labels, and its value. -/
structure Sample where
  name : String
  labels : List (String × String)
  value : Binary64
deriving DecidableEq, Repr

def Sample.line (sample : Sample) : String :=
  sample.name ++ labelText sample.labels ++ " " ++ sample.value.text ++ "\n"

def samples (name : String) (series : Series) : List Sample :=
  match series.reading with
  | .counter value => [⟨name, series.labels, .ofUInt64 value⟩]
  | .summary snapshot =>
    (snapshot.quantiles.map fun quantile =>
      ⟨name, series.labels ++ [("quantile", quantile.1.text)], quantile.2⟩) ++
    [⟨name ++ "_sum", series.labels, snapshot.sum⟩,
      ⟨name ++ "_count", series.labels, .ofUInt64 snapshot.count.toUInt64⟩]

/-- The series in the order of their label values. -/
def inOrder (series : List Series) : List Series :=
  series.mergeSort fun a b => !decide (b.labels.map (·.2) < a.labels.map (·.2))

def familyText (family : Family) : String :=
  "# HELP " ++ family.name ++ " " ++ escapeHelp family.help ++ "\n" ++
  "# TYPE " ++ family.name ++ " " ++ family.kind.name ++ "\n" ++
  String.join ((inOrder family.series).flatMap fun series =>
    (samples family.name series).map Sample.line)

/-- All families that have a series, in the order of their names. -/
def text (families : List Family) : String :=
  let shown := families.filter fun family => !family.series.isEmpty
  String.join ((shown.mergeSort fun a b => !decide (b.name < a.name)).map familyText)

end HedgedStore.Exposition

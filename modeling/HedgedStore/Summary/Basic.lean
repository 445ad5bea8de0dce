import HedgedStore.Metrics.Family
import HedgedStore.Metrics.Labelled
import HedgedStore.Summary.Options

/-! Summaries: quantiles over a window that moves with the clock, and a count and a sum of
everything observed. One stands alone, or there is one for each tuple of label values, all with
the same plan and none touched by what happens to another. -/
namespace HedgedStore

namespace Summary

/-- What a caller may do wrong, and what the clock cannot do. -/
inductive Fault where
  /-- There are as many label values as were given, not as many as the labels. -/
  | cardinality (name : String) (given expected : Nat)
  | clockOverflow
deriving DecidableEq, Repr

def Fault.message : Fault → String
  | .cardinality name given expected =>
    "assertion `left == right` failed: inconsistent label cardinality for " ++ name ++
      "\n  left: " ++ toString given ++ "\n right: " ++ toString expected
  | .clockOverflow => "overflow when adding duration to instant"

/-- A step of a window, or the fault of the clock. -/
def timely {α : Type} (step : Option α) : Except Fault α :=
  match step with
  | some a => .ok a
  | none => .error .clockOverflow

end Summary

structure Summary where
  form : Summary.Form
  window : Summary.Window
deriving Repr

namespace Summary

def create (form : Form) (now : Instant) : Except Fault Summary := do
  return ⟨form, ← timely (Window.create form.plan now)⟩

def observe (now : Instant) (word : Nat) (x : Binary64) : Summary → Except Fault Summary
  | ⟨form, window⟩ => do return ⟨form, ← timely (window.observe form.plan now word x)⟩

def snapshot (now : Instant) : Summary → Except Fault (Snapshot × Summary)
  | ⟨form, window⟩ => do
    let (snapshot, window) ← timely (window.snapshot form.plan now)
    return (snapshot, ⟨form, window⟩)

def collect (now : Instant) (summary : Summary) : Except Fault (Family × Summary) := do
  let (snapshot, summary) ← summary.snapshot now
  let d := summary.form.description
  return ({ name := d.name, help := d.help, kind := .summary
            series := [{ reading := .summary snapshot }] }, summary)

end Summary

/-- Summaries by label values. One that is asked for exists from then on. -/
structure SummaryVec where
  form : Summary.Form
  windows : Labelled Summary.Window := {}
deriving Repr

namespace SummaryVec

open Summary (Fault Snapshot Window timely)

/-- The label values, if there are as many of them as labels. -/
def checked (vec : SummaryVec) (values : List String) : Except Fault Unit :=
  let d := vec.form.description
  if values.length = d.labels.length then .ok ()
  else .error (.cardinality d.name values.length d.labels.length)

def find? (vec : SummaryVec) (values : List String) : Option Window := vec.windows.find? values

/-- The family after one of its series has moved on. -/
def put (vec : SummaryVec) (values : List String) (window : Window) : SummaryVec :=
  { vec with windows := vec.windows.insert values window }

/-- The series with these values, brought about unless it exists, and the family with it. -/
def enter (vec : SummaryVec) (now : Instant) (values : List String) :
    Except Fault (Window × SummaryVec) :=
  match vec.find? values with
  | some window => .ok (window, vec)
  | none => do
    let window ← timely (Window.create vec.form.plan now)
    return (window, vec.put values window)

def observe (vec : SummaryVec) (now : Instant) (values : List String) (word : Nat)
    (x : Binary64) : Except Fault SummaryVec := do
  vec.checked values
  let (window, vec) ← vec.enter now values
  return vec.put values (← timely (window.observe vec.form.plan now word x))

def snapshot (vec : SummaryVec) (now : Instant) (values : List String) :
    Except Fault (Snapshot × SummaryVec) := do
  vec.checked values
  let (window, vec) ← vec.enter now values
  let (snapshot, window) ← timely (window.snapshot vec.form.plan now)
  return (snapshot, vec.put values window)

/-- Reads every series, in the order of the label values. -/
def collect (vec : SummaryVec) (now : Instant) : Except Fault (Family × SummaryVec) := do
  let d := vec.form.description
  let read ← vec.windows.entries.mapM fun entry => do
    let (snapshot, window) ← timely (entry.2.snapshot vec.form.plan now)
    return (entry.1, snapshot, window)
  return ({ name := d.name, help := d.help, kind := .summary
            series := read.map fun entry =>
              { labels := d.named entry.1, reading := .summary entry.2.1 } },
    { vec with windows := ⟨read.map fun entry => (entry.1, entry.2.2)⟩ })

end SummaryVec

end HedgedStore

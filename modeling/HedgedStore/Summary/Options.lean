import HedgedStore.Metrics.Description
import HedgedStore.Number.Decimal
import HedgedStore.Summary.Window

/-! What is asked of a summary, and whether it can be had. -/
namespace HedgedStore.Summary

structure Options where
  name : String
  help : String
  objectives : List (Binary64 × Binary64) := []
  maxAge : Duration := .ofSeconds 60
  ageBuckets : Nat := 6
  maxSamples : Nat := 512
deriving DecidableEq, Inhabited, Repr

inductive Rejection where
  | zeroMeasure (name : String)
  | quantileRange (name : String) (quantile : Binary64)
  | description (why : Description.Fault)
deriving DecidableEq, Repr

def Rejection.message : Rejection → String
  | .zeroMeasure name =>
    "summary " ++ name ++ ": max_age, age_buckets and max_samples must be non-zero"
  | .quantileRange name q => "summary " ++ name ++ ": quantile " ++ q.text ++ " out of range"
  | .description why => why.message

/-- A summary that can be had: its description, and the plan of its windows. -/
structure Form where
  description : Description
  plan : Plan
deriving DecidableEq, Inhabited, Repr

namespace Options

/-- The plan that the options describe. Slices are equal and in whole nanoseconds. -/
def plan (options : Options) : Except Rejection Plan :=
  if options.ageBuckets = 0 ∨ options.maxAge.nanos = 0 ∨ options.maxSamples = 0 then
    .error (.zeroMeasure options.name)
  else
    let quantiles := options.objectives.map (·.1)
    match quantiles.find? fun q => !q.inUnitInterval with
    | some q => .error (.quantileRange options.name q)
    | none => .ok {
        quantiles := quantiles.mergeSort Binary64.atMost
        slice := ⟨options.maxAge.nanos / options.ageBuckets⟩
        slices := options.ageBuckets
        capacity := options.maxSamples }

/-- The summary that the options describe, its series told apart by the labels. -/
def form (options : Options) (labels : List String) : Except Rejection Form := do
  let plan ← options.plan
  let description := { name := options.name, help := options.help, labels }
  match Description.fault? description with
  | some why => throw (.description why)
  | none => return { description, plan }

end Options

end HedgedStore.Summary

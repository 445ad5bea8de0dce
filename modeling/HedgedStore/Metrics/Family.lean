import HedgedStore.Summary.Window

/-! What a metric says when it is asked: a family of series, one for each tuple of label values. -/
namespace HedgedStore

inductive Reading where
  | counter (value : UInt64)
  | summary (snapshot : Summary.Snapshot)
deriving DecidableEq, Repr

structure Series where
  /-- The labels with their values, sorted by name. -/
  labels : List (String × String) := []
  reading : Reading
deriving DecidableEq, Repr

inductive MetricKind where
  | counter
  | summary
deriving DecidableEq, Inhabited, Repr

def MetricKind.name : MetricKind → String
  | .counter => "counter"
  | .summary => "summary"

structure Family where
  name : String
  help : String
  kind : MetricKind
  series : List Series
deriving DecidableEq, Repr

end HedgedStore

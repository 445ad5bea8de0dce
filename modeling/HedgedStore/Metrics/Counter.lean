import HedgedStore.Metrics.Description
import HedgedStore.Metrics.Family
import HedgedStore.Metrics.Labelled

/-! Counters. A counter's total is exact; it is shown modulo 2^64. -/
namespace HedgedStore

structure Counter where
  total : Nat := 0
deriving DecidableEq, Inhabited, Repr

namespace Counter

def add (counter : Counter) (n : Nat) : Counter := ⟨counter.total + n⟩

def value (counter : Counter) : UInt64 := counter.total.toUInt64

/-- The counter on its own, without labels. -/
def collect (d : Description) (counter : Counter) : Family :=
  { name := d.name, help := d.help, kind := .counter
    series := [{ reading := .counter counter.value }] }

end Counter

/-- Counters by label values. One that is asked for exists from then on. -/
abbrev CounterVec := Labelled Counter

namespace CounterVec

def total (counters : CounterVec) (values : List String) : Nat :=
  ((counters.find? values).getD {}).total

/-- Adds to the counter with these values; adding nothing brings it about. -/
def add (counters : CounterVec) (values : List String) (n : Nat) : CounterVec :=
  counters.insert values ((counters.find? values).getD {} |>.add n)

def collect (d : Description) (counters : CounterVec) : Family :=
  { name := d.name, help := d.help, kind := .counter
    series := counters.entries.map fun entry =>
      { labels := d.named entry.1, reading := .counter entry.2.value } }

end CounterVec

end HedgedStore

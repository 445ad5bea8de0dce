import HedgedStore.Clock
import HedgedStore.Summary.Reservoir

/-! A window of time that moves on in slices. New observations go into the newest slice; whenever a
slice's time is over the oldest slice makes way for an empty one. The count and the sum of what
was observed never expire. An operation gives nothing where the clock cannot count far enough. -/
namespace HedgedStore.Summary

/-- How a window is divided and read. -/
structure Plan where
  /-- The quantiles to report, in total order. -/
  quantiles : List Binary64 := []
  /-- The time that a slice is the newest one. -/
  slice : Duration
  slices : Nat
  capacity : Nat
deriving DecidableEq, Inhabited, Repr

structure Window where
  /-- The slices, the newest one first. -/
  slices : List Reservoir
  /-- When the newest slice's time is over. -/
  deadline : Instant
  count : Nat := 0
  sum : Binary64 := .zero
deriving DecidableEq, Repr

/-- What a window shows: its quantiles are taken over the live slices. -/
structure Snapshot where
  count : Nat
  sum : Binary64
  quantiles : List (Binary64 × Binary64)
deriving DecidableEq, Repr

/-- The nearest rank: the least of the sorted numbers that has a share `q` of them at or below it.
There is none among no numbers. -/
def nearestRank (sorted : Array Binary64) (q : Binary64) : Binary64 :=
  let size := sorted.size
  let place := (q.mul (.ofUInt64 size.toUInt64)).ceilNat
  (sorted[min (place - 1) (size - 1)]?).getD .nan

namespace Window

def create (plan : Plan) (now : Instant) : Option Window := do
  return { slices := List.replicate plan.slices .empty, deadline := ← now.after? plan.slice }

/-- The slices after so many empty ones came in and as many of the oldest ones went. -/
def renew (plan : Plan) (turns : Nat) (slices : List Reservoir) : List Reservoir :=
  (List.replicate turns Reservoir.empty ++ slices).take plan.slices

/-- Moves the window on to `now`. If it has fallen behind by its whole length, it begins afresh. -/
def rotate (plan : Plan) (window : Window) (now : Instant) : Option Window := do
  if now.nanos < window.deadline.nanos then return window
  else
    let behind := now.since window.deadline
    if behind.nanos ≥ plan.slice.nanos * plan.slices then
      return { window with
        slices := renew plan plan.slices window.slices
        deadline := ← now.after? plan.slice }
    else
      let turns := behind.nanos / plan.slice.nanos + 1
      return { window with
        slices := renew plan turns window.slices
        deadline := ← window.deadline.after? ⟨plan.slice.nanos * turns⟩ }

def store (plan : Plan) (word : Nat) (x : Binary64) : Window → Window
  | ⟨newest :: older, deadline, count, sum⟩ =>
    ⟨newest.observe plan.capacity word x :: older, deadline, count + 1, sum.add x⟩
  | ⟨[], deadline, count, sum⟩ => ⟨[], deadline, count + 1, sum.add x⟩

/-- Takes a number in at `now`; `word` decides its place in a full slice. -/
def observe (plan : Plan) (window : Window) (now : Instant) (word : Nat) (x : Binary64) :
    Option Window :=
  (window.rotate plan now).map (store plan word x)

/-- All numbers of the live slices, in total order. -/
def sorted (window : Window) : List Binary64 :=
  (window.slices.flatMap fun slice => slice.samples.toList).mergeSort Binary64.atMost

/-- What the window shows as it stands. -/
def read (plan : Plan) (window : Window) : Snapshot :=
  let sorted := window.sorted.toArray
  { count := window.count
    sum := window.sum
    quantiles := plan.quantiles.map fun q => (q, nearestRank sorted q) }

def snapshot (plan : Plan) (window : Window) (now : Instant) : Option (Snapshot × Window) :=
  (window.rotate plan now).map fun window => (window.read plan, window)

end Window

end HedgedStore.Summary

import HedgedStore.Hedge.Race

/-! A race on a clock that moves only while everything waits. Each attempt takes a known time
from its call on, or never completes. The race is polled whenever something becomes due; it is
given up when its time is over and a last poll has not ended it. -/
namespace HedgedStore.Hedge

variable {α : Type}

/-- An attempt that completes with `result` after so much time, if ever. -/
structure Timing (α : Type) where
  after : Option Nat
  result : α

/-- What an attempt called at `start` would answer at `now`. -/
def Timing.at? (timing : Timing α) (start now : Nat) : Option α :=
  match timing.after with
  | some after => if start + after ≤ now then some timing.result else none
  | none => none

/-- A race, and what happened in it so far. All times count from its beginning. -/
structure Run (α : Type) where
  phase : Phase α := .created
  /-- The actions with their times, the last one first. -/
  actions : List (Nat × Action) := []
  /-- When the race ended or was given up. -/
  ended : Option Nat := none

namespace Run

def record (run : Run α) (now : Nat) (step : Phase α × List Action) : Run α :=
  { run with
    phase := step.1
    actions := (step.2.map fun action => (now, action)).reverse ++ run.actions }

/-- What the race is to see at a time. The hedge is called when the delay is over. -/
def view (delay : Nat) (primary hedge : Timing α) (now : Nat) : View α :=
  { primary := primary.at? 0 now
    hedge := hedge.at? delay now
    elapsed := decide (delay ≤ now) }

@[simp]
theorem view_onceMore (delay : Nat) (primary hedge : Timing α) (now : Nat) :
    (view delay primary hedge now).onceMore = view delay primary hedge now := rfl

/-- Polls the race, and gives it up if it goes on although its time is over. -/
def step (delay : Nat) (primary hedge : Timing α) (limit : Option Nat) (run : Run α) (now : Nat) :
    Run α :=
  match run.ended with
  | some _ => run
  | none =>
    let run := run.record now (run.phase.poll (view delay primary hedge now))
    match run.phase.outcome? with
    | some _ => { run with ended := some now }
    | none =>
      if limit.any (fun limit => decide (limit ≤ now)) then
        { run.record now run.phase.drop with ended := some now }
      else run

end Run

/-- The times at which something becomes due, in order. -/
def dueTimes (delay : Nat) (primary hedge : Timing α) (limit : Option Nat) : List Nat :=
  let times := [some 0, primary.after, some delay, hedge.after.map (delay + ·), limit]
  (times.filterMap id).mergeSort

def race (delay : Nat) (primary hedge : Timing α) (limit : Option Nat) : Run α :=
  (dueTimes delay primary hedge limit).foldl (Run.step delay primary hedge limit) {}

end HedgedStore.Hedge

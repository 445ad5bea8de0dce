import HedgedStore.Log

/-! A hedged race. A call is attempted once, and a second time when the first attempt is slow; the
attempt that completes first is adopted, be its result good or bad, and the other one is let go.
An attempt that completes lets go at once of what it holds, but is still there until the race ends.
Then all attempts are discarded, the hedge before the primary, whichever of them was adopted.

The race advances only when it is polled. A poll looks at what each attempt would answer now and
does in one go all that can be done: `Phase.poll` gives the next phase and the actions, in
order. Where several things are ready at once the hedge comes before the primary, and the
primary before the delay. -/
namespace HedgedStore.Hedge

inductive Attempt where
  | primary
  | hedge
deriving DecidableEq, Inhabited, Repr

def Attempt.name : Attempt → String
  | .primary => "primary"
  | .hedge => "hedge"

structure Outcome (α : Type) where
  result : α
  winner : Attempt
  hedged : Bool
deriving DecidableEq, Repr

inductive Phase (α : Type) where
  /-- Nothing has happened; no attempt exists. -/
  | created
  /-- The primary is under way and the delay runs. -/
  | waiting
  /-- Both attempts are under way. -/
  | hedged
  | finished (outcome : Outcome α)
  /-- The race was given up. -/
  | dropped
deriving DecidableEq, Repr

inductive Action where
  /-- An attempt is made. -/
  | call (attempt : Attempt)
  | poll (attempt : Attempt)
  | complete (attempt : Attempt)
  /-- An attempt lets go of what it holds. -/
  | release (attempt : Attempt)
  /-- An attempt is disposed of. One that has not completed is released by that. -/
  | discard (attempt : Attempt)
  | countLaunch
  | countWin
  | tellLaunch
  | tellWinner (attempt : Attempt)
deriving DecidableEq, Repr

/-- What a poll finds: what each attempt would answer, and whether the delay is over. -/
structure View (α : Type) where
  primary : Option α
  hedge : Option α
  elapsed : Bool
  /-- What the primary would answer if it were polled once more, behind a hedge just launched. -/
  again : Option α := primary

/-- What there is to be found when both attempts are polled in the same go. -/
def View.onceMore {α : Type} (view : View α) : View α := { view with primary := view.again }

namespace Phase

variable {α : Type}

/-- Polls both attempts, the hedge first. -/
def pollBoth (view : View α) : Phase α × List Action :=
  match view.hedge, view.primary with
  | some result, _ =>
    (finished ⟨result, .hedge, true⟩,
      [.poll .hedge, .complete .hedge, .release .hedge, .countWin, .tellWinner .hedge,
        .discard .hedge, .discard .primary, .release .primary])
  | none, some result =>
    (finished ⟨result, .primary, true⟩,
      [.poll .hedge, .poll .primary, .complete .primary, .release .primary,
        .tellWinner .primary, .discard .hedge, .release .hedge, .discard .primary])
  | none, none => (hedged, [.poll .hedge, .poll .primary])

/-- Polls the primary; if it is not done and the delay is over, launches the hedge and polls
both. -/
def pollPrimary (view : View α) : Phase α × List Action :=
  match view.primary with
  | some result =>
    (finished ⟨result, .primary, false⟩,
      [.poll .primary, .complete .primary, .release .primary, .discard .primary])
  | none =>
    if view.elapsed then
      let (phase, actions) := pollBoth view.onceMore
      (phase, [.poll .primary, .countLaunch, .tellLaunch, .call .hedge] ++ actions)
    else (waiting, [.poll .primary])

def poll (view : View α) : Phase α → Phase α × List Action
  | created =>
    let (phase, actions) := pollPrimary view
    (phase, .call .primary :: actions)
  | waiting => pollPrimary view
  | hedged => pollBoth view
  | finished outcome => (finished outcome, [])
  | dropped => (dropped, [])

/-- Gives the race up; the hedge goes before the primary. -/
def drop : Phase α → Phase α × List Action
  | created => (dropped, [])
  | waiting => (dropped, [.discard .primary, .release .primary])
  | hedged =>
    (dropped, [.discard .hedge, .release .hedge, .discard .primary, .release .primary])
  | finished outcome => (finished outcome, [])
  | dropped => (dropped, [])

def outcome? : Phase α → Option (Outcome α)
  | finished outcome => some outcome
  | _ => none

theorem outcome_eq_some {phase : Phase α} {outcome : Outcome α} :
    phase.outcome? = some outcome ↔ phase = finished outcome := by
  cases phase <;> simp [outcome?]

end Phase

def logTarget : String := "ctlog_s3::upload::hedge"

def Action.event? (delay : Duration) : Action → Option LogEvent
  | .tellLaunch =>
    some (.debug logTarget "primary attempt is slow, launching hedge"
      [("delay", .duration delay)])
  | .tellWinner attempt =>
    some (.debug logTarget "competing request succeeded, abandoning the other attempt"
      [("winner", .text attempt.name)])
  | _ => none

structure Tally where
  launched : Nat := 0
  won : Nat := 0
deriving DecidableEq, Repr

def Tally.count (tally : Tally) : Action → Tally
  | .countLaunch => { tally with launched := tally.launched + 1 }
  | .countWin => { tally with won := tally.won + 1 }
  | _ => tally

def Tally.countAll (tally : Tally) (actions : List Action) : Tally :=
  actions.foldl Tally.count tally

/-- The delay before a hedge unless something else is asked for. -/
def defaultDelay : Duration := .ofMillis 75

end HedgedStore.Hedge

import HedgedStore.Summary.Basic

/-! A family of summaries in the hands of several clients. Whoever asks for a series looks it up
first. Only if it is missing it is entered, by a step of its own before which others may have their
turns. What is handed out is the series itself, and observations go through the handle. -/
namespace HedgedStore

open Summary (Fault Window timely)

/-- A family whose series are told apart by when they were created, and not only by their label
values. -/
structure SharedVec where
  form : Summary.Form
  /-- All series that were ever created, the earliest one first. -/
  series : List Window := []
  /-- Which of them is asked for by which label values. -/
  places : Labelled Nat := {}
deriving Repr

namespace SharedVec

/-- Where the series with these values stands among all series. -/
def find? (shared : SharedVec) (values : List String) : Option Nat := shared.places.find? values

/-- The series itself, as it is now. -/
def window? (shared : SharedVec) (values : List String) : Option Window :=
  (shared.find? values).bind fun place => shared.series[place]?

/-- The family with one more series. -/
def add (shared : SharedVec) (values : List String) (window : Window) : SharedVec :=
  { shared with
    series := shared.series ++ [window]
    places := shared.places.insert values shared.series.length }

/-- Looks again, with nobody else looking, and creates the series if it is still missing. -/
def enter (shared : SharedVec) (now : Instant) (values : List String) :
    Except Fault (Nat × SharedVec) :=
  match shared.find? values with
  | some place => .ok (place, shared)
  | none => do
    let window ← timely (Window.create shared.form.plan now)
    return (shared.series.length, shared.add values window)

/-- The family after one of its series has moved on. -/
def set (shared : SharedVec) (place : Nat) (window : Window) : SharedVec :=
  { shared with series := shared.series.set place window }

/-- Observes through a handle on a series. -/
def observe (shared : SharedVec) (now : Instant) (place word : Nat) (x : Binary64) :
    Except Fault SharedVec :=
  match shared.series[place]? with
  | none => .ok shared
  | some window => do
    let window ← timely (window.observe shared.form.plan now word x)
    return shared.set place window

def checked (shared : SharedVec) (values : List String) : Except Fault Unit :=
  SummaryVec.checked { form := shared.form } values

/-- Gets a handle on the series with these values while nobody else has a turn. -/
def handle (shared : SharedVec) (now : Instant) (values : List String) :
    Except Fault (Nat × SharedVec) :=
  match shared.find? values with
  | some place => .ok (place, shared)
  | none => shared.enter now values

/-- All that a client does to observe once, if nobody else has a turn meanwhile. -/
def call (shared : SharedVec) (now : Instant) (values : List String) (word : Nat) (x : Binary64) :
    Except Fault SharedVec := do
  shared.checked values
  let (place, shared) ← shared.handle now values
  shared.observe now place word x

end SharedVec

end HedgedStore

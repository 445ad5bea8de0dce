import HedgedStore.Number.Binary64

/-! A choice of limited size from the numbers observed so far. While there is room all of them are
kept; after that each new number takes a place drawn from as many as have been seen, if that
place exists, and so each of the numbers is kept with the same chance. -/
namespace HedgedStore.Summary

structure Reservoir where
  samples : Array Binary64 := #[]
  /-- How many numbers have been observed. -/
  seen : Nat := 0
deriving DecidableEq, Inhabited, Repr

def Reservoir.empty : Reservoir := {}

/-- Takes a number in. The place it may take is `word` modulo the count of numbers seen. -/
def Reservoir.observe (capacity word : Nat) (x : Binary64) : Reservoir → Reservoir
  | ⟨samples, seen⟩ =>
    if samples.size < capacity then ⟨samples.push x, seen + 1⟩
    else ⟨samples.setIfInBounds (word % (seen + 1)) x, seen + 1⟩

/-- A source of words without a pattern, of sixty-four bits each. -/
structure Draws where
  state : UInt64
deriving Inhabited, Repr

/-- The next word, and the source after it. The state moves by a fixed odd step, and two rounds of
shifting and multiplying stir it. -/
def Draws.next (draws : Draws) : Nat × Draws :=
  let state := draws.state + 0x9E3779B97F4A7C15
  let word := (state ^^^ (state >>> 30)) * 0xBF58476D1CE4E5B9
  let word := (word ^^^ (word >>> 27)) * 0x94D049BB133111EB
  ((word ^^^ (word >>> 31)).toNat, ⟨state⟩)

end HedgedStore.Summary

import HedgedStore.Bytes
import HedgedStore.Gzip.Alphabet
import HedgedStore.Gzip.Phrase

/-! Data as phrases. A copy is looked for among the latest places where the same three bytes
stood. -/
namespace HedgedStore.Gzip

/-- The number of equal bytes from two places on, up to a limit. -/
def commonLength (data : Array UInt8) (i j : Nat) : Nat → Nat
  | 0 => 0
  | limit + 1 =>
    if j < data.size && data.getD i 0 == data.getD j 0 then
      commonLength data (i + 1) (j + 1) limit + 1
    else 0

/-- Where three bytes stood last, and for each place where they stood before. Zero means nowhere,
so nothing is copied from the first byte on. -/
structure PlaceIndex where
  latest : Array Nat
  earlier : Array Nat

namespace PlaceIndex

def slots : Nat := 4096

def empty (size : Nat) : PlaceIndex := ⟨Array.replicate slots 0, Array.replicate size 0⟩

def slot (data : Array UInt8) (i : Nat) : Nat :=
  ((data.getD i 0).toNat * 1321 + (data.getD (i + 1) 0).toNat * 37 + (data.getD (i + 2) 0).toNat)
    % slots

def insert (index : PlaceIndex) (slot i : Nat) : PlaceIndex :=
  let before := index.latest.getD slot 0
  ⟨index.latest.setIfInBounds slot i, index.earlier.setIfInBounds i before⟩

/-- The longest copy for the bytes at `i` among some candidate places, the latest first. -/
def longestCopy? (data : Array UInt8) (earlier : Array Nat) (i : Nat) :
    Nat → Nat → Nat × Nat → Nat × Nat
  | 0, _, best => best
  | tries + 1, candidate, best =>
    if candidate == 0 || best.1 ≥ longestCopy then best
    else
      if i - candidate > furthestCopy then best
      else
        let length := commonLength data candidate i longestCopy
        let best := if length > best.1 then (length, i - candidate) else best
        longestCopy? data earlier i tries (earlier.getD candidate 0) best

end PlaceIndex

/-- Splits data from a place on, the first `covered` bytes belonging to a copy already found.
Phrases are collected last first. -/
def phrasesFrom (data : Array UInt8) : Nat → Nat → Nat → PlaceIndex → List Phrase → List Phrase
  | 0, _, _, _, phrases => phrases.reverse
  | rest + 1, i, covered, index, phrases =>
    let slot := PlaceIndex.slot data i
    let candidate := index.latest.getD slot 0
    let (length, distance) :=
      if covered > 0 then (0, 0)
      else PlaceIndex.longestCopy? data index.earlier i 32 candidate (0, 0)
    let index := index.insert slot i
    if covered > 0 then phrasesFrom data rest (i + 1) (covered - 1) index phrases
    else if length ≥ shortestCopy then
      phrasesFrom data rest (i + 1) (length - 1) index (.copy length distance :: phrases)
    else phrasesFrom data rest (i + 1) 0 index (.byte (data.getD i 0) :: phrases)

def phrases (data : Bytes) : List Phrase :=
  let data := data.toArray
  phrasesFrom data data.size 0 0 (.empty data.size) []

end HedgedStore.Gzip

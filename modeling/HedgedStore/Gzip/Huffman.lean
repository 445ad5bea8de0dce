import HedgedStore.Gzip.Bits

/-! Canonical prefix codes. The lengths of the code words, symbol by symbol, say everything:
shorter words come before longer ones, and words of one length are numbered in the order of
their symbols. -/
namespace HedgedStore.Gzip

/-- No code word is longer. -/
def longestWord : Nat := 15

/-- The words of one length, and how many beginnings of that length belong to longer words. -/
structure Level where
  words : Nat
  inner : Nat
deriving DecidableEq, Repr

structure PrefixCode where
  /-- By length, from one bit on. -/
  levels : List Level
  /-- In the order of their words. -/
  symbols : Array Nat
deriving Repr

namespace PrefixCode

/-- The symbols whose words have a given length. -/
def symbolsOfLength (lengths : List Nat) (length : Nat) : List Nat :=
  lengths.zipIdx.filterMap fun entry => if entry.1 == length then some entry.2 else none

/-- Puts the levels on top of each other, the deepest one first. -/
def stack (counts : List Nat) : List Level :=
  counts.foldr (fun words below =>
    let inner := match below with
      | [] => 0
      | next :: _ => (next.words + next.inner + 1) / 2
    ⟨words, inner⟩ :: below) []

/-- How many words of each length there are, from one bit on. -/
def counts (lengths : List Nat) : List Nat :=
  (List.range longestWord).map fun i => lengths.count (i + 1)

def ofLengths (lengths : List Nat) : PrefixCode :=
  { levels := stack (counts lengths)
    symbols :=
      ((List.range longestWord).flatMap fun i => symbolsOfLength lengths (i + 1)).toArray }

/-- The share of all words of the longest length that a code takes up. -/
def weight (lengths : List Nat) : Nat :=
  (counts lengths).foldl (fun total words => 2 * total + words) 0

/-- Every sequence of bits starts with a word, and no word starts with another one. -/
def isComplete (lengths : List Nat) : Bool := weight lengths == Nat.pow 2 longestWord

def used (lengths : List Nat) : Nat := lengths.countP (· != 0)

/-- Reads a word level by level. `code` is the number of the beginning read so far and `first`
that of the first word on the level above, doubled. -/
def readFrom (symbols : Array Nat) : List Level → Nat → Nat → Nat → BitSource →
    Except Fault (Nat × BitSource)
  | [], _, _, _, _ => .error .corrupt
  | level :: below, code, first, index, s => do
    let (b, s) ← s.next
    let code := 2 * code + b.toNat
    let place := code - first
    if place < level.words then
      match symbols[index + place]? with
      | some symbol => return (symbol, s)
      | none => throw .corrupt
    else if place < level.words + level.inner then
      readFrom symbols below code (2 * (first + level.words)) (index + level.words) s
    else throw .corrupt

def read (code : PrefixCode) (s : BitSource) : Except Fault (Nat × BitSource) :=
  readFrom code.symbols code.levels 0 0 0 s

/-- The number of the first word of each length, from one bit on. -/
def firstWords (lengths : List Nat) : List Nat :=
  ((counts lengths).foldl (fun (state : List Nat × Nat) words =>
    (2 * state.2 :: state.1, 2 * state.2 + words)) ([], 0)).1.reverse

/-- The word of a symbol, its highest bit first; empty for a symbol without a word. -/
def words (lengths : List Nat) : Array (List Bool) :=
  let first := (0 :: firstWords lengths).toArray
  (lengths.foldl (fun (state : Array (List Bool) × Array Nat) length =>
    let number := state.2.getD length 0
    let word := if length == 0 then [] else (natBits length number).reverse
    (state.1.push word, state.2.setIfInBounds length (number + 1))) (#[], first)).1

end PrefixCode

end HedgedStore.Gzip

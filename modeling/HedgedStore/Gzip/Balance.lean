import HedgedStore.Gzip.Huffman

/-! Code lengths that suit the frequencies of symbols. The symbols, the most frequent ones first, are
split into two parts of about the same weight, and each part again with one more bit, until every
symbol stands alone. No part gets more symbols than the bits that are left tell apart. -/
namespace HedgedStore.Gzip

/-- A symbol that occurs. -/
structure Leaf where
  symbol : Nat
  weight : Nat
deriving DecidableEq, Repr

namespace Leaf

/-- How many leaves come before the middle of a weight. A leaf that lies across it counts if its
greater part comes before. -/
def beforeMiddle (total : Nat) : Nat → List Leaf → Nat
  | _, [] => 0
  | passed, leaf :: leaves =>
    if 2 * passed + leaf.weight ≤ total then
      beforeMiddle total (passed + leaf.weight) leaves + 1
    else 0

/-- Where leaves are split, if words with `room` more bits are to be left for each part. -/
def cut (room : Nat) (leaves : List Leaf) : Nat :=
  let total := leaves.foldl (fun total leaf => total + leaf.weight) 0
  let most := min (leaves.length - 1) (Nat.pow 2 room)
  let least := max 1 (leaves.length - Nat.pow 2 room)
  max least (min most (beforeMiddle total 0 leaves))

/-- Symbols and the lengths of their words, none longer than `room`. -/
def depths : Nat → List Leaf → List (Nat × Nat)
  | 0, leaves => leaves.map fun leaf => (leaf.symbol, 0)
  | room + 1, leaves =>
    if leaves.length ≤ 1 then leaves.map fun leaf => (leaf.symbol, 0)
    else
      let parts := leaves.splitAt (cut room leaves)
      (depths room parts.1 ++ depths room parts.2).map fun entry => (entry.1, entry.2 + 1)

/-- The symbols that occur, the most frequent ones first. -/
def ofWeights (weights : List Nat) : List Leaf :=
  let leaves := weights.zipIdx.filterMap fun entry =>
    if entry.1 == 0 then none else some (⟨entry.2, entry.1⟩ : Leaf)
  leaves.mergeSort fun a b => decide (b.weight ≤ a.weight)

end Leaf

/-- Gives a weight to so many symbols that have none, the first ones. -/
def enlist : Nat → List Nat → List Nat
  | 0, weights => weights
  | _, [] => []
  | more + 1, weight :: weights =>
    if weight == 0 then 1 :: enlist more weights else weight :: enlist (more + 1) weights

/-- The lengths of a complete code that has a word for each symbol with a weight, and for two symbols
at least. No word is longer than `limit`. -/
def balancedLengths (limit : Nat) (weights : List Nat) : List Nat :=
  let weights := enlist (2 - PrefixCode.used weights) weights
  let found := Leaf.depths limit (Leaf.ofWeights weights)
  (List.range weights.length).map fun symbol => (found.lookup symbol).getD 0

end HedgedStore.Gzip

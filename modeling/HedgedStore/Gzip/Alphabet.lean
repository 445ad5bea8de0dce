/-! The symbols of a compressed block: bytes, the end of the block, and lengths of copies; and the
symbols of their distances. A length or distance is a base value plus an offset of some bits. -/
namespace HedgedStore.Gzip

def endOfBlock : Nat := 256

def firstLength : Nat := 257

def shortestCopy : Nat := 3

def longestCopy : Nat := 258

def furthestCopy : Nat := 32768

/-- Base value and bits of the offset, from the symbol `firstLength` on. -/
def lengthClasses : List (Nat × Nat) := [
  (3, 0), (4, 0), (5, 0), (6, 0), (7, 0), (8, 0), (9, 0), (10, 0), (11, 1), (13, 1), (15, 1),
  (17, 1), (19, 2), (23, 2), (27, 2), (31, 2), (35, 3), (43, 3), (51, 3), (59, 3), (67, 4),
  (83, 4), (99, 4), (115, 4), (131, 5), (163, 5), (195, 5), (227, 5), (258, 0)]

/-- Base value and bits of the offset, from the symbol zero on. -/
def distanceClasses : List (Nat × Nat) := [
  (1, 0), (2, 0), (3, 0), (4, 0), (5, 1), (7, 1), (9, 2), (13, 2), (17, 3), (25, 3), (33, 4),
  (49, 4), (65, 5), (97, 5), (129, 6), (193, 6), (257, 7), (385, 7), (513, 8), (769, 8),
  (1025, 9), (1537, 9), (2049, 10), (3073, 10), (4097, 11), (6145, 11), (8193, 12), (12289, 12),
  (16385, 13), (24577, 13)]

/-- The last class whose base value is at most `n`: its place in the list, its bits and the
offset of `n`. -/
def classOf (classes : List (Nat × Nat)) (n : Nat) : Nat × Nat × Nat :=
  let place := (classes.takeWhile fun c => decide (c.1 ≤ n)).length - 1
  match classes[place]? with
  | some (base, bits) => (place, bits, n - base)
  | none => (place, 0, 0)

/-- The lengths of the words for bytes and lengths in a block with the fixed code. -/
def fixedLengths : List Nat :=
  List.replicate 144 8 ++ List.replicate 112 9 ++ List.replicate 24 7 ++ List.replicate 8 8

/-- The lengths of the words for distances in a block with the fixed code. -/
def fixedDistances : List Nat := List.replicate 32 5

/-- The order in which a block tells the code of its code lengths. -/
def lengthOrder : List Nat :=
  [16, 17, 18, 0, 8, 7, 9, 6, 10, 5, 11, 4, 12, 3, 13, 2, 14, 1, 15]

end HedgedStore.Gzip

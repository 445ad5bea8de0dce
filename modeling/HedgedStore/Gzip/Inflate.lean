import HedgedStore.Gzip.Alphabet
import HedgedStore.Gzip.Huffman

/-! Decoding a compressed stream, block by block. What was decoded so far is at hand for copies. A
copy from before the beginning is refused, unless the decoder is told what byte stands there. Every
step reads at least one bit, so the number of bits bounds the number of steps. -/
namespace HedgedStore.Gzip

/-- The byte that stands so far before the end of what was decoded. `blank` is what stands before the
beginning, if anything does. -/
def byteBack? (blank : Option UInt8) (distance : Nat) (out : Array UInt8) : Option UInt8 :=
  if distance ≤ out.size then out[out.size - distance]? else blank

/-- Appends bytes that stand before, the copied ones included. -/
def copyBack? (blank : Option UInt8) (distance : Nat) : Nat → Array UInt8 → Option (Array UInt8)
  | 0, out => some out
  | length + 1, out =>
    match byteBack? blank distance out with
    | some b => copyBack? blank distance length (out.push b)
    | none => none

/-- Reads the offset of a class and adds the base value. -/
def readClass (classes : List (Nat × Nat)) (place : Nat) (s : BitSource) :
    Except Fault (Nat × BitSource) :=
  match classes[place]? with
  | none => .error .corrupt
  | some (base, bits) => do
    let (offset, s) ← s.number bits
    return (base + offset, s)

/-- Decodes the symbols of a block up to its end. -/
def readSymbols (blank : Option UInt8) (symbols distances : PrefixCode) :
    Nat → Array UInt8 → BitSource → Except Fault (Array UInt8 × BitSource)
  | 0, _, _ => .error .truncated
  | steps + 1, out, s => do
    let (symbol, s) ← symbols.read s
    if symbol < endOfBlock then
      readSymbols blank symbols distances steps (out.push symbol.toUInt8) s
    else if symbol == endOfBlock then return (out, s)
    else
      let (length, s) ← readClass lengthClasses (symbol - firstLength) s
      let (place, s) ← distances.read s
      let (distance, s) ← readClass distanceClasses place s
      match copyBack? blank distance length out with
      | some out => readSymbols blank symbols distances steps out s
      | none => throw .corrupt

def readStored (out : Array UInt8) (s : BitSource) : Except Fault (Array UInt8 × BitSource) := do
  let s := s.align
  let (length, s) ← s.number 16
  let (complement, s) ← s.number 16
  if length + complement != 65535 then throw .corrupt
  let (bytes, s) ← s.take length
  return (out ++ bytes, s)

/-- Reads `total` code lengths, the last of them first in `lengths`. -/
def readLengths (code : PrefixCode) (total : Nat) :
    Nat → List Nat → BitSource → Except Fault (List Nat × BitSource)
  | 0, _, _ => .error .truncated
  | steps + 1, lengths, s =>
    if lengths.length == total then .ok (lengths.reverse, s)
    else if lengths.length > total then .error .corrupt
    else do
      let (symbol, s) ← code.read s
      if symbol < 16 then readLengths code total steps (symbol :: lengths) s
      else if symbol == 16 then
        let (more, s) ← s.number 2
        match lengths with
        | [] => throw .corrupt
        | last :: _ => readLengths code total steps (List.replicate (3 + more) last ++ lengths) s
      else
        let (least, bits) := if symbol == 17 then (3, 3) else (11, 7)
        let (more, s) ← s.number bits
        readLengths code total steps (List.replicate (least + more) 0 ++ lengths) s

/-- Reads `n` numbers of three bits. -/
def readTriples : Nat → BitSource → Except Fault (List Nat × BitSource)
  | 0, s => .ok ([], s)
  | n + 1, s => do
    let (length, s) ← s.number 3
    let (lengths, s) ← readTriples n s
    return (length :: lengths, s)

/-- Code lengths that a block may use: those of a complete code, or of at most one word, which
then is one bit long. -/
def isUsable (lengths : List Nat) : Bool :=
  PrefixCode.isComplete lengths || (PrefixCode.used lengths ≤ 1 && lengths.all (· ≤ 1))

/-- The code of the code lengths. Without any word every bit stands for a length of zero. -/
def lengthCode? (lengths : List Nat) : Option PrefixCode :=
  if PrefixCode.used lengths == 0 then some { levels := [⟨2, 0⟩], symbols := #[0, 0] }
  else if PrefixCode.isComplete lengths then some (.ofLengths lengths)
  else none

/-- Reads the two codes at the start of a block. The end of the block must have a word. -/
def readCodes (s : BitSource) : Except Fault ((PrefixCode × PrefixCode) × BitSource) := do
  let (symbols, s) ← s.number 5
  let (distances, s) ← s.number 5
  let (triples, s) ← s.number 4
  let symbols := symbols + 257
  let distances := distances + 1
  if symbols > 286 || distances > 30 then throw .corrupt
  let (triples, s) ← readTriples (triples + 4) s
  let told := lengthOrder.zip triples
  let lengths := (List.range 19).map fun symbol => (told.lookup symbol).getD 0
  let code ← match lengthCode? lengths with
    | some code => pure code
    | none => throw .corrupt
  let total := symbols + distances
  let (lengths, s) ← readLengths code total (total + 1) [] s
  let (symbolLengths, distanceLengths) := lengths.splitAt symbols
  if symbolLengths.getD endOfBlock 0 != 0 && isUsable symbolLengths &&
      isUsable distanceLengths then
    return ((.ofLengths symbolLengths, .ofLengths distanceLengths), s)
  else throw .corrupt

def readBlock (blank : Option UInt8) (steps : Nat) (out : Array UInt8) (s : BitSource) :
    Except Fault (Array UInt8 × BitSource) := do
  let (kind, s) ← s.number 2
  if kind == 0 then readStored out s
  else if kind == 1 then
    readSymbols blank (.ofLengths fixedLengths) (.ofLengths fixedDistances) steps out s
  else if kind == 2 then
    let ((symbols, distances), s) ← readCodes s
    readSymbols blank symbols distances steps out s
  else throw .corrupt

def readBlocks (blank : Option UInt8) (limit : Nat) :
    Nat → Array UInt8 → BitSource → Except Fault (Array UInt8 × BitSource)
  | 0, _, _ => .error .truncated
  | steps + 1, out, s => do
    let (last, s) ← s.next
    let (out, s) ← readBlock blank limit out s
    if last then return (out, s) else readBlocks blank limit steps out s

/-- Decodes the stream at the start of some bytes. The answer holds its data and what follows the
byte in which the stream ends. -/
def inflate (blank : Option UInt8) (bytes : Bytes) : Except Fault (Bytes × Bytes) := do
  let limit := 8 * bytes.length + 1
  let (out, s) ← readBlocks blank limit limit #[] (.ofBytes bytes)
  return (out.toList, s.bytes)

end HedgedStore.Gzip

import HedgedStore.Gzip.Balance
import HedgedStore.Gzip.Matching

/-! Encoding data as a compressed stream. One block holds all phrases, in the fixed code or in one
made for them; where neither saves anything, the data is stored as it is. -/
namespace HedgedStore.Gzip

/-- The most bytes that one stored block holds. -/
def storedLimit : Nat := 65535

def storedHeader (last : Bool) (length : Nat) : Bytes :=
  (if last then 1 else 0) :: littleEndian 2 length ++ littleEndian 2 (65535 - length)

/-- Stores data in blocks, each from a byte boundary on. -/
def storeFrom : Nat → Bytes → List Bytes → Bytes
  | 0, _, blocks => blocks.reverse.flatten
  | steps + 1, data, blocks =>
    let rest := data.drop storedLimit
    let chunk := data.take storedLimit
    let block := storedHeader rest.isEmpty chunk.length ++ chunk
    if rest.isEmpty then (block :: blocks).reverse.flatten
    else storeFrom steps rest (block :: blocks)

def store (data : Bytes) : Bytes := storeFrom (data.length / storedLimit + 1) data []

/-- A phrase as symbols: that of a byte or a length with the bits of its offset, and that of a
distance. -/
def Phrase.symbol : Phrase → Nat × List Bool
  | .byte b => (b.toNat, [])
  | .copy length _ =>
    let (place, bits, offset) := classOf lengthClasses length
    (firstLength + place, natBits bits offset)

def Phrase.distanceSymbol? : Phrase → Option (Nat × List Bool)
  | .byte _ => none
  | .copy _ distance =>
    let (place, bits, offset) := classOf distanceClasses distance
    some (place, natBits bits offset)

def phraseBits (symbolLengths distanceLengths : List Nat) (phrases : List Phrase) : List Bool :=
  let symbols := PrefixCode.words symbolLengths
  let distances := PrefixCode.words distanceLengths
  phrases.flatMap (fun phrase =>
    let (symbol, offset) := phrase.symbol
    symbols.getD symbol [] ++ offset ++
      match phrase.distanceSymbol? with
      | none => []
      | some (symbol, offset) => distances.getD symbol [] ++ offset)
    ++ symbols.getD endOfBlock []

def frequencies (size : Nat) (symbols : List Nat) : List Nat :=
  (symbols.foldl (fun (found : Array Nat) s => found.setIfInBounds s (found.getD s 0 + 1))
    (Array.replicate size 0)).toList

/-- Numbers as runs of equal ones. -/
def runs : List Nat → List (Nat × Nat)
  | [] => []
  | n :: rest =>
    match runs rest with
    | [] => [(n, 1)]
    | (m, count) :: more => if n == m then (m, count + 1) :: more else (n, 1) :: (m, count) :: more

/-- A run of zeros as symbols with offset bits. -/
def zeroSymbols (count : Nat) : List (Nat × List Bool) :=
  let left := count % 138
  List.replicate (count / 138) (18, natBits 7 127) ++
    if left < 3 then List.replicate left (0, [])
    else if left < 11 then [(17, natBits 3 (left - 3))]
    else [(18, natBits 7 (left - 11))]

/-- The same length again, so many times, as symbols with offset bits. -/
def againSymbols (length count : Nat) : List (Nat × List Bool) :=
  let left := count % 6
  List.replicate (count / 6) (16, natBits 2 3) ++
    if left < 3 then List.replicate left (length, []) else [(16, natBits 2 (left - 3))]

/-- Code lengths as symbols with offset bits, a run at a time. -/
def lengthSymbols (lengths : List Nat) : List (Nat × List Bool) :=
  (runs lengths).flatMap fun run =>
    if run.1 == 0 then zeroSymbols run.2 else (run.1, []) :: againSymbols run.1 (run.2 - 1)

/-- Drops the zeros at the end, but keeps at least `least` entries. -/
def trimZeros (least : Nat) (lengths : List Nat) : List Nat :=
  let kept := (lengths.reverse.dropWhile (· == 0)).length
  lengths.take (max kept least)

/-- The start of a block with a code of its own: the code of the code lengths, then these. -/
def codeBits (symbolLengths distanceLengths : List Nat) : List Bool :=
  let told := lengthSymbols (symbolLengths ++ distanceLengths)
  let lengths := balancedLengths 7 (frequencies 19 (told.map (·.1)))
  let triples := trimZeros 4 (lengthOrder.map fun symbol => lengths.getD symbol 0)
  let words := PrefixCode.words lengths
  natBits 5 (symbolLengths.length - 257) ++ natBits 5 (distanceLengths.length - 1) ++
    natBits 4 (triples.length - 4) ++ triples.flatMap (natBits 3) ++
    told.flatMap fun entry => words.getD entry.1 [] ++ entry.2

/-- One last block of the given kind. -/
def lastBlock (kind : Nat) (content : List Bool) : Bytes :=
  packBits (true :: natBits 2 kind ++ content)

def encodeFixed (phrases : List Phrase) : Bytes :=
  lastBlock 1 (phraseBits fixedLengths fixedDistances phrases)

/-- The symbols of phrases and of their end. -/
def symbolsOf (phrases : List Phrase) : List Nat := endOfBlock :: phrases.map (·.symbol.1)

/-- The symbols of the distances of phrases. -/
def distancesOf (phrases : List Phrase) : List Nat :=
  phrases.filterMap fun phrase => phrase.distanceSymbol?.map (·.1)

/-- The lengths of a code made for some symbols, at least so many of them told. -/
def tailoredLengths (least size : Nat) (symbols : List Nat) : List Nat :=
  trimZeros least (balancedLengths longestWord (frequencies size symbols))

def encodeTailored (phrases : List Phrase) : Bytes :=
  let symbolLengths := tailoredLengths 257 286 (symbolsOf phrases)
  let distanceLengths := tailoredLengths 1 30 (distancesOf phrases)
  lastBlock 2 (codeBits symbolLengths distanceLengths ++
    phraseBits symbolLengths distanceLengths phrases)

/-- The shorter of two streams, the first one if they are equally long. -/
def shorter (a b : Bytes) : Bytes := if b.length < a.length then b else a

/-- The shortest of the three streams that there are for some data. -/
def deflate (data : Bytes) : Bytes :=
  let phrases := phrases data
  shorter (store data) (shorter (encodeFixed phrases) (encodeTailored phrases))

end HedgedStore.Gzip

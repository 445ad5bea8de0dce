import HedgedStore.Bytes
import HedgedStore.Gzip.Phrase
import Mathlib.Algebra.Field.ZMod
import Mathlib.Algebra.Polynomial.Div
import Mathlib.Data.Nat.Digits.Defs

/-! What a gzip member is, told by its parts and not by the way it is read or written: bits and
bytes of numbers, the check of a text as a remainder of polynomials, the words of a prefix code, the
phrases that they spell, the three kinds of blocks, the stream made of them, and the header around
it. -/
namespace HedgedStore.Gzip

/-! Numbers. -/

/-- The lowest `width` bits of a number, the lowest one first. -/
def bitsOf (width n : Nat) : List Bool := (List.range width).map n.testBit

/-- The number whose bits these are, the lowest one first. -/
def valueOf (bits : List Bool) : Nat := Nat.ofDigits 2 (bits.map Bool.toNat)

/-- The lowest `width` bytes of a number, the lowest one first. -/
def bytesOf (width n : Nat) : Bytes :=
  (List.range width).map fun place => UInt8.ofNat (n / 256 ^ place)

/-- Bytes as a stream of bits. -/
def streamOf (bytes : Bytes) : List Bool := bytes.flatMap fun b => bitsOf 8 b.toNat

/-! The check. -/

section Check

open Polynomial

/-- Bits as the coefficients of a polynomial, that of the highest power first. -/
noncomputable def polynomialOf : List Bool → (ZMod 2)[X]
  | [] => 0
  | b :: bits => (if b then X ^ bits.length else 0) + polynomialOf bits

noncomputable def divisor : (ZMod 2)[X] :=
  X ^ 32 + X ^ 26 + X ^ 23 + X ^ 22 + X ^ 16 + X ^ 12 + X ^ 11 + X ^ 10 + X ^ 8 + X ^ 7 + X ^ 5 +
    X ^ 4 + X ^ 2 + X + 1

/-- All coefficients below the degree of the divisor. -/
noncomputable def inversion : (ZMod 2)[X] := polynomialOf (List.replicate 32 true)

/-- The cyclic redundancy check of some bytes. Their bits, with as many places behind them as the
check has, are divided by the divisor; the first bits of the dividend are inverted, and so is the
remainder. The lowest bit of the check is the coefficient of the highest power. -/
structure IsCheck (data : Bytes) (check : Nat) : Prop where
  small : check < 2 ^ 32
  remainder : polynomialOf (bitsOf 32 check) =
    (X ^ 32 * polynomialOf (streamOf data) + X ^ (8 * data.length) * inversion) %ₘ divisor + inversion

end Check

/-! Tables. -/

/-- Classes of values, each with its first value and the width of an offset from it. A class goes as
far as its offsets, and the next one follows. -/
def classesFrom : Nat → List Nat → List (Nat × Nat)
  | _, [] => []
  | first, width :: widths => (first, width) :: classesFrom (first + 2 ^ width) widths

/-- The lengths of copies: four classes for each width, but eight without an offset, and the greatest
length by itself. -/
def lengthScale : List (Nat × Nat) :=
  classesFrom 3 ((List.range 28).map fun place => place / 4 - 1) ++ [(258, 0)]

/-- The distances of copies: two classes for each width, but four without an offset. -/
def distanceScale : List (Nat × Nat) :=
  classesFrom 1 ((List.range 30).map fun place => place / 2 - 1)

/-- The lengths of words in the fixed code of bytes, the end of a block, and lengths. -/
def fixedSymbols : List Nat :=
  (List.range 288).map fun symbol =>
    if symbol < 144 then 8 else if symbol < 256 then 9 else if symbol < 280 then 7 else 8

/-- The lengths of words in the fixed code of distances. -/
def fixedFar : List Nat := (List.range 32).map fun _ => 5

/-- The order in which the code of code lengths is told: the repetitions, no length, and then the
lengths from the middle outwards. -/
def toldOrder : List Nat :=
  [16, 17, 18, 0, 8] ++ (List.range 7).flatMap fun apart => [7 - apart, 9 + apart]

/-! Words. -/

namespace PrefixCode

/-- How many words of a length begin with one word of another length. -/
def share (longest length : Nat) : Nat :=
  if 0 < length ∧ length ≤ longest then 2 ^ (longest - length) else 0

variable (lengths : List Nat)

/-- The number of the first word of each length: words of one length follow those of the length
before, with one more bit. -/
def firstWord : Nat → Nat
  | 0 => 0
  | 1 => 0
  | length + 2 => 2 * (firstWord (length + 1) + lengths.count (length + 1))

/-- The word of a symbol, its highest bit first. Words of one length are numbered in the order of
their symbols. -/
structure IsWord (symbol : Nat) (word : List Bool) : Prop where
  length : lengths[symbol]? = some word.length
  nonempty : word ≠ []
  short : word.length ≤ 15
  number : valueOf word.reverse =
    firstWord lengths word.length + (lengths.take symbol).count word.length

/-- Every long enough sequence of bits begins with one word. -/
def Complete : Prop := (lengths.map (share 15)).sum = 2 ^ 15

/-- A complete code, or one with a single word of one bit, or one without words. -/
def Usable : Prop :=
  Complete lengths ∨ ((∀ length ∈ lengths, length ≤ 1) ∧ lengths.count 1 ≤ 1)

end PrefixCode

/-- A value of a class: its offset is given by as many bits as the class says. -/
def Offset (classes : List (Nat × Nat)) (place value : Nat) (bits : List Bool) : Prop :=
  ∃ base, classes[place]? = some (base, bits.length) ∧ value = base + valueOf bits

/-! Phrases. -/

namespace Phrase

/-- The data after a phrase. A copy may reach into itself; where it reaches back before the data it
finds `blank` bytes, if it may reach there at all. -/
inductive Continues (blank : Option UInt8) (before : Bytes) : Phrase → Bytes → Prop where
  | byte (b : UInt8) : Continues blank before (.byte b) (before ++ [b])
  | copy {length distance : Nat} {after : Bytes} (near : 0 < distance) (kept : before <+: after)
      (grown : after.length = before.length + length)
      (copied : ∀ i, before.length ≤ i → i < after.length →
        after[i]? = if distance ≤ i then after[i - distance]? else blank) :
      Continues blank before (.copy length distance) after

/-- The bits of a phrase: the word of a byte; or the word and the offset of the length of a copy,
and then those of its distance. -/
inductive Spells (symbols distances : List Nat) : Phrase → List Bool → Prop where
  | byte {b : UInt8} {word : List Bool} (is_word : PrefixCode.IsWord symbols b.toNat word) :
      Spells symbols distances (.byte b) word
  | copy {length distance place far : Nat} {word offset farWord farOffset : List Bool}
      (length_word : PrefixCode.IsWord symbols (257 + place) word)
      (length_offset : Offset lengthScale place length offset)
      (distance_word : PrefixCode.IsWord distances far farWord)
      (distance_offset : Offset distanceScale far distance farOffset) :
      Spells symbols distances (.copy length distance)
        (word ++ (offset ++ (farWord ++ farOffset)))

end Phrase

/-- Phrases, one after another, and the end of the block. -/
inductive Phrases (blank : Option UInt8) (symbols distances : List Nat) :
    Bytes → Bytes → List Bool → Prop where
  | ended {data : Bytes} {word : List Bool} (is_word : PrefixCode.IsWord symbols 256 word) :
      Phrases blank symbols distances data data word
  | phrase {phrase : Phrase} {before between after : Bytes} {bits rest : List Bool}
      (spelled : phrase.Spells symbols distances bits)
      (continued : phrase.Continues blank before between)
      (onward : Phrases blank symbols distances between after rest) :
      Phrases blank symbols distances before after (bits ++ rest)

/-! Codes that a block brings with it. -/

/-- What one symbol tells after some code lengths: a length, the last one again, or zeros, the
repetitions with the bits of an offset. -/
inductive Further (before : List Nat) : Nat → List Bool → List Nat → Prop where
  | length {n : Nat} (small : n < 16) : Further before n [] [n]
  | again {last : Nat} {offset : List Bool} (known : before.getLast? = some last)
      (two : offset.length = 2) :
      Further before 16 offset (List.replicate (3 + valueOf offset) last)
  | zeros {offset : List Bool} (three : offset.length = 3) :
      Further before 17 offset (List.replicate (3 + valueOf offset) 0)
  | manyZeros {offset : List Bool} (seven : offset.length = 7) :
      Further before 18 offset (List.replicate (11 + valueOf offset) 0)

/-- Code lengths, told in words of a code of their own. -/
inductive Lengths (code : List Nat) : List Nat → List Nat → List Bool → Prop where
  | done {lengths : List Nat} : Lengths code lengths lengths []
  | more {before new lengths : List Nat} {symbol : Nat} {word offset rest : List Bool}
      (is_word : PrefixCode.IsWord code symbol word) (told : Further before symbol offset new)
      (onward : Lengths code (before ++ new) lengths rest) :
      Lengths code before lengths (word ++ (offset ++ rest))

/-- The code of the code lengths, by its own lengths as they are told. -/
def lengthsCode (triples : List Nat) : List Nat :=
  (List.range 19).map fun symbol => triples.getD (toldOrder.idxOf symbol) 0

/-- Two codes told by their lengths, the lengths in turn in a code of their own. -/
structure Told (symbols distances triples : List Nat) (bits : List Bool) : Prop where
  complete : PrefixCode.Complete (lengthsCode triples)
  lengths : Lengths (lengthsCode triples) [] (symbols ++ distances) bits
  ends : symbols[256]? ≠ some 0
  symbols_usable : PrefixCode.Usable symbols
  distances_usable : PrefixCode.Usable distances

/-- The two codes that a block may bring with it. -/
structure Codes (symbols distances triples : List Nat) (bits : List Bool) : Prop
    extends Told symbols distances triples bits where
  symbols_fit : 257 ≤ symbols.length ∧ symbols.length ≤ 286
  distances_fit : 1 ≤ distances.length ∧ distances.length ≤ 30
  triples_fit : 4 ≤ triples.length ∧ triples.length ≤ 19
  small : ∀ length ∈ triples, length < 8

/-- How many lengths there are, and the code of the code lengths. -/
def codesHead (symbols distances triples : List Nat) : List Bool :=
  bitsOf 5 (symbols.length - 257) ++ (bitsOf 5 (distances.length - 1) ++
    (bitsOf 4 (triples.length - 4) ++ triples.flatMap (bitsOf 3)))

/-! Blocks. -/

/-- Bytes as they are, from a byte boundary on, behind their number and its complement. -/
inductive Stored (start : Nat) (before : Bytes) : Bytes → List Bool → Prop where
  | stored {padding : List Bool} {chunk : Bytes} (few : padding.length < 8)
      (aligned : 8 ∣ start + padding.length) (fits : chunk.length ≤ 65535) :
      Stored start before (before ++ chunk)
        (padding ++ (bitsOf 16 chunk.length ++
          (bitsOf 16 (65535 - chunk.length) ++ streamOf chunk)))

/-- Phrases behind the codes that they are in. -/
inductive Tailored (blank : Option UInt8) (before after : Bytes) : List Bool → Prop where
  | tailored {symbols distances triples : List Nat} {told bits : List Bool}
      (codes : Codes symbols distances triples told)
      (phrases : Phrases blank symbols distances before after bits) :
      Tailored blank before after (codesHead symbols distances triples ++ told ++ bits)

/-- A block that starts after so many bits: its kind and what it holds. -/
inductive Block (blank : Option UInt8) (start : Nat) (before after : Bytes) : List Bool → Prop where
  | stored {bits : List Bool} (content : Stored (start + 2) before after bits) :
      Block blank start before after (bitsOf 2 0 ++ bits)
  | fixed {bits : List Bool} (content : Phrases blank fixedSymbols fixedFar before after bits) :
      Block blank start before after (bitsOf 2 1 ++ bits)
  | tailored {bits : List Bool} (content : Tailored blank before after bits) :
      Block blank start before after (bitsOf 2 2 ++ bits)

/-- Blocks, one after another, each with a bit that says whether it is the last. -/
inductive Blocks (blank : Option UInt8) : Nat → Bytes → Bytes → List Bool → Prop where
  | last {start : Nat} {before after : Bytes} {bits : List Bool}
      (block : Block blank (start + 1) before after bits) :
      Blocks blank start before after (true :: bits)
  | more {start : Nat} {before between after : Bytes} {bits rest : List Bool}
      (block : Block blank (start + 1) before between bits)
      (onward : Blocks blank (start + 1 + bits.length) between after rest) :
      Blocks blank start before after (false :: (bits ++ rest))

/-- A whole compressed stream, which ends within its last byte, and the data that it stands for. -/
def Deflated (blank : Option UInt8) (body data : Bytes) : Prop :=
  ∃ bits padding : List Bool,
    streamOf body = bits ++ padding ∧ padding.length < 8 ∧ Blocks blank 0 [] data bits

/-! The header, and the whole. -/

/-- Extra data behind its length. -/
def ExtraField (field : Bytes) : Prop :=
  ∃ extra : Bytes, extra.length < 65536 ∧ field = bytesOf 2 extra.length ++ extra

/-- A text and the zero that ends it. -/
def TextField (field : Bytes) : Prop :=
  ∃ text : Bytes, 0 ∉ text ∧ text.length ≤ 65535 ∧ field = text ++ [0]

/-- A field that is there if a bit of the flags is set. -/
def Flagged (flags : UInt8) (bit : Nat) (Field : Bytes → Prop) (field : Bytes) : Prop :=
  if flags.toNat.testBit bit then Field field else field = []

/-- The fields of a header before its check. -/
structure HeaderFields where
  flags : UInt8
  /-- The time, hints of the compressor, and the system. -/
  about : Bytes
  extra : Bytes
  name : Bytes
  comment : Bytes
  reserved : flags.toNat < 32
  about_length : about.length = 6
  extra_flagged : Flagged flags 2 ExtraField extra
  name_flagged : Flagged flags 3 TextField name
  comment_flagged : Flagged flags 4 TextField comment

/-- What the check of the header covers. -/
def HeaderFields.bytes (fields : HeaderFields) : Bytes :=
  0x1f :: 0x8b :: 8 :: fields.flags :: fields.about ++ fields.extra ++ fields.name ++ fields.comment

/-- As much of a check as two bytes can tell. -/
def ShortCheck (covered field : Bytes) : Prop :=
  ∃ check, IsCheck covered check ∧ field = bytesOf 2 check

/-- The header of a member. -/
structure Header extends HeaderFields where
  check : Bytes
  check_flagged : Flagged flags 1 (ShortCheck toHeaderFields.bytes) check

def Header.bytes (header : Header) : Bytes := header.toHeaderFields.bytes ++ header.check

/-- A whole member that holds some data: a header, a stream, the check of the data and its length as
far as four bytes can tell it. -/
def Member (blank : Option UInt8) (data member : Bytes) : Prop :=
  ∃ (header : Header) (body : Bytes) (check : Nat), Deflated blank body data ∧ IsCheck data check ∧
    member = header.bytes ++ (body ++ (bytesOf 4 check ++ bytesOf 4 (data.length % 2 ^ 32)))

end HedgedStore.Gzip

import HedgedStore.Gzip.Deflate
import HedgedStore.Gzip.Inflate
import HedgedStore.Number.Binary64

/-! A gzip member: a header with optional fields, a compressed stream, and a trailer with the
checksum and the length of the data. What follows a member is not looked at. -/
namespace HedgedStore.Gzip

inductive MemberFault where
  /-- The bytes end within the header or the trailer. -/
  | truncated
  | header
  /-- A name or a comment that does not end. -/
  | fieldTooLong
  | incompleteStream
  | corruptStream
  /-- The header, the data or its length is not what the checks say. -/
  | mismatch
deriving DecidableEq, Repr

namespace MemberFault

/-- The bytes may have been cut off. -/
def isUnexpectedEnd : MemberFault → Bool
  | truncated | incompleteStream => true
  | _ => false

def message : MemberFault → String
  | truncated => "unexpected end of file"
  | header => "invalid gzip header"
  | fieldTooLong => "gzip header field too long"
  | incompleteStream => "incomplete deflate stream"
  | corruptStream => "corrupt deflate stream"
  | mismatch => "corrupt gzip stream does not have a matching checksum"

end MemberFault

/-- The header that is written: no optional fields, no time, an unknown system. -/
def plainHeader : Bytes := [0x1f, 0x8b, 8, 0, 0, 0, 0, 0, 0, 0xff]

/-- The longest name or comment. -/
def fieldLimit : Nat := 65535

/-- Takes bytes off the front. -/
def takeBytes (n : Nat) (bytes : Bytes) : Except MemberFault (Bytes × Bytes) :=
  let taken := bytes.take n
  if taken.length == n then .ok (taken, bytes.drop n) else .error .truncated

/-- Passes a text that ends with a zero, and the zero. -/
def skipText (bytes : Bytes) : Except MemberFault Bytes :=
  let text := (bytes.take (fieldLimit + 1)).takeWhile (· != 0)
  if text.length > fieldLimit then .error .fieldTooLong
  else match bytes.drop text.length with
  | [] => .error .truncated
  | _ :: rest => .ok rest

/-- A field of the header that stands there if its flag is set. -/
def optionalField (present : Bool) (skip : Bytes → Except MemberFault Bytes) (bytes : Bytes) :
    Except MemberFault Bytes :=
  if present then skip bytes else .ok bytes

/-- Passes extra data behind its length. -/
def skipExtra (bytes : Bytes) : Except MemberFault Bytes := do
  let (length, bytes) ← takeBytes 2 bytes
  let (_, bytes) ← takeBytes (ofLittleEndian length) bytes
  return bytes

/-- Passes the checksum of the header, which started `whole`. -/
def skipHeaderCheck (whole bytes : Bytes) : Except MemberFault Bytes := do
  let (check, rest) ← takeBytes 2 bytes
  let covered := whole.take (whole.length - bytes.length)
  if ofLittleEndian check == (crc32 covered).toNat % 65536 then return rest
  else throw .mismatch

def skipHeader (whole : Bytes) : Except MemberFault Bytes := do
  let (start, bytes) ← takeBytes 10 whole
  let flags := (start.getD 3 0).toNat
  if start.take 3 != [0x1f, 0x8b, 8] || flags ≥ 32 then throw .header
  let bytes ← optionalField (flags.testBit 2) skipExtra bytes
  let bytes ← optionalField (flags.testBit 3) skipText bytes
  let bytes ← optionalField (flags.testBit 4) skipText bytes
  optionalField (flags.testBit 1) (skipHeaderCheck whole) bytes

/-- Passes the trailer if it fits the data. -/
def skipTrailer (data bytes : Bytes) : Except MemberFault Bytes := do
  let (trailer, rest) ← takeBytes 8 bytes
  if ofLittleEndian (trailer.take 4) == (crc32 data).toNat &&
      ofLittleEndian (trailer.drop 4) == data.length % 0x100000000 then return rest
  else throw .mismatch

/-- Reads one member: its data, and what follows it. `blank` is what a copy finds before the
beginning of the data. -/
def readMember (blank : Option UInt8) (bytes : Bytes) : Except MemberFault (Bytes × Bytes) := do
  let body ← skipHeader bytes
  match inflate blank body with
  | .error .truncated => throw .incompleteStream
  | .error .corrupt => throw .corruptStream
  | .ok (data, rest) => return (data, ← skipTrailer data rest)

def gunzipWith (blank : Option UInt8) (bytes : Bytes) : Except MemberFault Bytes :=
  (readMember blank bytes).map (·.1)

/-- The window of the decoder is full of zeros at first. -/
def gunzip (bytes : Bytes) : Except MemberFault Bytes := gunzipWith (some 0) bytes

/-- The check value and the length of data. -/
def trailer (data : Bytes) : Bytes :=
  littleEndian 4 (crc32 data).toNat ++ littleEndian 4 data.length

def gzip (data : Bytes) : Bytes := plainHeader ++ deflate data ++ trailer data

/-- Where bytes are written to, a piece at a time. A piece may be refused. -/
structure Writer (σ : Type) where
  write : Bytes → σ → Except String σ

/-- Memory takes every piece. -/
def Writer.memory : Writer Bytes := ⟨fun piece written => .ok (written ++ piece)⟩

/-- Writes a member in its parts. -/
def writeMember {σ : Type} (writer : Writer σ) (data : Bytes) (state : σ) : Except String σ := do
  let state ← writer.write plainHeader state
  let state ← writer.write (deflate data) state
  writer.write (trailer data) state

/-- Compresses data in memory. -/
def compress (data : Bytes) : Except String Bytes := writeMember .memory data []

def encodingName : String := "gzip"

/-- How much of `plain` bytes is left in `compressed` bytes. Nothing cannot shrink. -/
def ratio (compressed plain : Nat) : Binary64 :=
  if plain = 0 then .one
  else (Binary64.ofUInt64 compressed.toUInt64).div (Binary64.ofUInt64 plain.toUInt64)

end HedgedStore.Gzip

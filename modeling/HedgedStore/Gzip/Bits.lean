import HedgedStore.Gzip.Checksum

/-! Bytes as bits, the lowest bit of each byte first. -/
namespace HedgedStore.Gzip

/-- The lowest `width` bits of a number, the lowest one first. -/
def natBits : Nat → Nat → List Bool
  | 0, _ => []
  | width + 1, n => (n % 2 == 1) :: natBits width (n / 2)

/-- The number that bits stand for, the lowest one first. -/
def ofBits : List Bool → Nat
  | [] => 0
  | b :: bs => b.toNat + 2 * ofBits bs

def byteBits (b : UInt8) : List Bool := natBits 8 b.toNat

/-- Groups bits into bytes, zeros filling up the last one. -/
def packBits (bits : List Bool) : Bytes :=
  go [] 8 bits []
where
  go : List Bool → Nat → List Bool → Bytes → Bytes
    | current, _, [], packed =>
      if current.isEmpty then packed.reverse
      else ((ofBits current.reverse).toUInt8 :: packed).reverse
    | current, 0, b :: bs, packed => go [b] 7 bs ((ofBits current.reverse).toUInt8 :: packed)
    | current, room + 1, b :: bs, packed => go (b :: current) room bs packed

inductive Fault where
  | truncated
  | corrupt
deriving DecidableEq, Repr

/-- What remains to be read: the bits left of a byte under way, then whole bytes. -/
structure BitSource where
  pending : List Bool
  bytes : Bytes
deriving DecidableEq, Repr

namespace BitSource

def ofBytes (bytes : Bytes) : BitSource := ⟨[], bytes⟩

def toList (s : BitSource) : List Bool := s.pending ++ s.bytes.flatMap byteBits

def next (s : BitSource) : Except Fault (Bool × BitSource) :=
  match s.pending with
  | b :: pending => .ok (b, ⟨pending, s.bytes⟩)
  | [] =>
    match s.bytes with
    | [] => .error .truncated
    | byte :: bytes =>
      match byteBits byte with
      | b :: pending => .ok (b, ⟨pending, bytes⟩)
      | [] => .error .corrupt

/-- Reads a number of so many bits, the lowest one first. -/
def number : Nat → BitSource → Except Fault (Nat × BitSource)
  | 0, s => .ok (0, s)
  | width + 1, s => do
    let (b, s) ← s.next
    let (n, s) ← number width s
    return (b.toNat + 2 * n, s)

/-- Drops what is left of the byte under way. -/
def align (s : BitSource) : BitSource := ⟨[], s.bytes⟩

/-- Reads whole bytes from a byte boundary. -/
def take (n : Nat) (s : BitSource) : Except Fault (Bytes × BitSource) :=
  let taken := s.bytes.take n
  if taken.length == n then .ok (taken, ⟨[], s.bytes.drop n⟩) else .error .truncated

end BitSource

end HedgedStore.Gzip

/-! The phrases of compressed data: single bytes, and copies of what came before. -/
namespace HedgedStore.Gzip

inductive Phrase where
  | byte (b : UInt8)
  /-- As many bytes as `length` from `distance` bytes before. -/
  | copy (length distance : Nat)
deriving DecidableEq, Repr

end HedgedStore.Gzip

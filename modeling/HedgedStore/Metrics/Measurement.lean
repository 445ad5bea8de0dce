import HedgedStore.Metrics.StoreMetrics

/-! What there is to measure about a backend at work. -/
namespace HedgedStore

inductive Measurement where
  /-- A request was answered after so long. -/
  | answered (method : String) (status : Nat) (elapsed : Duration)
  /-- An upload's race is over; its body has so many bytes. -/
  | uploadSize (bytes : Nat)
  | compressRatio (ratio : Binary64)
  | hedgeLaunched
  | hedgeAdopted
deriving DecidableEq, Repr

namespace StoreMetrics

/-- Takes a measurement in; the word is for a full slice of a window. -/
def measure (metrics : StoreMetrics) (now : Instant) (word : Nat) :
    Measurement → Except Summary.Fault StoreMetrics
  | .answered method status elapsed => metrics.record now word method status elapsed
  | .uploadSize bytes => metrics.observeUploadSize now word (.ofUInt64 bytes.toUInt64)
  | .compressRatio ratio => metrics.observeCompressRatio now word ratio
  | .hedgeLaunched => .ok (metrics.countHedges 1)
  | .hedgeAdopted => .ok (metrics.countAdoptions 1)

end StoreMetrics

end HedgedStore

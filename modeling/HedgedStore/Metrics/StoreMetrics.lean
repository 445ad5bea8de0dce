import HedgedStore.Metrics.Counter
import HedgedStore.Metrics.Exposition
import HedgedStore.Metrics.Registry
import HedgedStore.Summary.Basic

/-! The metrics of one backend: how many requests were answered and how long they took, by method
and status; the sizes of the bodies sent and how far they were compressed; how many hedges were
launched and adopted. -/
namespace HedgedStore

structure StoreMetrics where
  requests : CounterVec := {}
  durations : SummaryVec
  uploadSizes : Summary
  compressRatios : Summary
  hedges : Counter := {}
  hedgeWins : Counter := {}
deriving Repr

namespace StoreMetrics

def requestsDescription : Description :=
  { name := "s3_requests_total"
    help := "S3 HTTP requests performed, by method and response code."
    labels := ["method", "code"] }

def hedgesDescription : Description :=
  { name := "s3_hedges_total"
    help := "S3 hedge requests that were launched because the main request was too slow." }

def hedgeWinsDescription : Description :=
  { name := "s3_hedges_successful_total"
    help := "S3 hedge requests that completed before the main request." }

/-- A minute in six slices. -/
def minute (quantiles : List Float) : Summary.Plan :=
  { quantiles := quantiles.map Binary64.ofFloat
    slice := .ofSeconds 10
    slices := 6
    capacity := 512 }

def durationsForm : Summary.Form :=
  { description :=
      { name := "s3_request_duration_seconds"
        help := "S3 HTTP request latencies, by method and response code."
        labels := ["method", "code"] }
    plan := minute [0.5, 0.75, 0.9, 0.99] }

def uploadSizesForm : Summary.Form :=
  { description :=
      { name := "s3_upload_size_bytes"
        help := "S3 (compressed) body size in bytes for object puts." }
    plan := minute [0.5, 0.9, 0.99] }

def compressRatiosForm : Summary.Form :=
  { description :=
      { name := "s3_compress_ratio"
        help := "Ratio of compressed to uncompressed body size for compressible object puts." }
    plan := minute [] }

/-- What the metrics are, in the order in which they are handed out. -/
def descriptions : List Description :=
  [requestsDescription, durationsForm.description, uploadSizesForm.description,
    compressRatiosForm.description, hedgesDescription, hedgeWinsDescription]

open Summary (Fault)

def create (now : Instant) : Except Fault StoreMetrics := do
  return {
    durations := { form := durationsForm }
    uploadSizes := ← Summary.create uploadSizesForm now
    compressRatios := ← Summary.create compressRatiosForm now }

/-- Counts an answered request and how long its answer took. -/
def record (metrics : StoreMetrics) (now : Instant) (word : Nat) (method : String) (status : Nat)
    (elapsed : Duration) : Except Fault StoreMetrics := do
  let values := [method, toString status]
  let metrics := { metrics with requests := metrics.requests.add values 1 }
  return { metrics with
    durations := ← metrics.durations.observe now values word elapsed.seconds }

def countHedges (metrics : StoreMetrics) (n : Nat) : StoreMetrics :=
  { metrics with hedges := metrics.hedges.add n }

def countAdoptions (metrics : StoreMetrics) (n : Nat) : StoreMetrics :=
  { metrics with hedgeWins := metrics.hedgeWins.add n }

def observeUploadSize (metrics : StoreMetrics) (now : Instant) (word : Nat) (size : Binary64) :
    Except Fault StoreMetrics := do
  return { metrics with uploadSizes := ← metrics.uploadSizes.observe now word size }

def observeCompressRatio (metrics : StoreMetrics) (now : Instant) (word : Nat)
    (ratio : Binary64) : Except Fault StoreMetrics := do
  return { metrics with compressRatios := ← metrics.compressRatios.observe now word ratio }

def register (registry : Registry) : Except AlreadyRegistered Unit × Registry :=
  registry.registerAll descriptions

def counterFamilies (metrics : StoreMetrics) : List Family :=
  [metrics.requests.collect requestsDescription, metrics.hedges.collect hedgesDescription,
    metrics.hedgeWins.collect hedgeWinsDescription]

def gather (metrics : StoreMetrics) (registry : Registry) (now : Instant) :
    Except Fault (List Family × StoreMetrics) := do
  let counters := metrics.counterFamilies.filter fun family => registry.knows family.name
  let (durations, metrics) ←
    if registry.knows durationsForm.description.name then do
      let (family, durations) ← metrics.durations.collect now
      pure ([family], { metrics with durations })
    else pure ([], metrics)
  let (sizes, metrics) ←
    if registry.knows uploadSizesForm.description.name then do
      let (family, uploadSizes) ← metrics.uploadSizes.collect now
      pure ([family], { metrics with uploadSizes })
    else pure ([], metrics)
  let (ratios, metrics) ←
    if registry.knows compressRatiosForm.description.name then do
      let (family, compressRatios) ← metrics.compressRatios.collect now
      pure ([family], { metrics with compressRatios })
    else pure ([], metrics)
  return (counters ++ durations ++ sizes ++ ratios, metrics)

end StoreMetrics

end HedgedStore

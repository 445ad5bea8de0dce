import HedgedStore.Backend.Calls
import HedgedStore.Backend.Upload
import HedgedStore.Hedge.Timeline
import HedgedStore.Store.Link
import HedgedStore.Store.Stopwatch

/-! A backend at work. Calls are made one after another over a link to a store; each takes its
time, and what it leaves behind is measured and told when it happens. -/
namespace HedgedStore

structure Session (σ : Type) where
  backend : Backend
  link : Link σ
  store : σ
  metrics : StoreMetrics
  now : Instant
  draws : Summary.Draws := ⟨0⟩
  /-- What has been told, the last event first. -/
  log : List LogEvent := []

/-- Effects with the times at which they happen, counted from the beginning of a call. -/
abbrev Timed := List (Nat × Effect)

namespace Session

open Summary (Fault)

variable {σ α : Type}

/-- The answered exchanges of a request, measured when the answers come in. -/
def answered (watch : Stopwatch) (method : Method) (start : Nat) : List Exchange → Timed
  | [] => []
  | exchange :: rest =>
    let now := start + exchange.takes.nanos
    let watch := watch.start method.name ⟨start⟩
    let measured := (exchange.answer.bind fun answer => watch.answered? ⟨now⟩ answer.status).toList
    measured.map (fun measurement => (now, .measure measurement)) ++
      answered watch method now rest

def create (config : StoreConfig) (backend : Backend) (link : Link σ) (store : σ)
    (now : Instant) : Except Fault (Session σ) := do
  return { backend, link, store, now, metrics := ← StoreMetrics.create now
           log := [Backend.creation config] }

/-- Lets one effect happen so long after the beginning of the call. -/
def happen (session : Session σ) (effect : Nat × Effect) : Except Fault (Session σ) :=
  match effect.2 with
  | .tell event => .ok { session with log := event :: session.log }
  | .measure measurement => do
    let (word, draws) := session.draws.next
    let now := ⟨session.now.nanos + effect.1⟩
    return { session with draws, metrics := ← session.metrics.measure now word measurement }

/-- Lets the effects of a call happen, and its time pass. -/
def pass (session : Session σ) (store : σ) (takes : Nat) (effects : Timed) :
    Except Fault (Session σ) := do
  let session ← effects.foldlM happen session
  return { session with store, now := ⟨session.now.nanos + takes⟩ }

def call {β : Type} (session : Session σ) (request : Request) (read : Answer → Verdict β)
    (conclude : Except Refusal β → Except Failure α × List Effect) :
    Except Fault (Except Failure α × Session σ) := do
  let attempts := session.backend.maxAttempts
  let (course, store) := session.link.settle attempts read request session.store
  let (result, effects) := conclude course.result
  let last := effects.map fun effect => (course.takes, effect)
  let effects := answered {} request.method 0 course.exchanges ++ last
  return (result, ← session.pass store course.takes effects)

def fetch (session : Session σ) (key : String) :
    Except Fault (Except Failure Bytes × Session σ) :=
  session.call (session.backend.fetchRequest key) Answer.download (Backend.fetched key)

def list (session : Session σ) (start : String) :
    Except Fault (Except Failure (List String) × Session σ) :=
  session.call (session.backend.listRequest start) Answer.listed (session.backend.listed start)

def copy (session : Session σ) (source target : String) :
    Except Fault (Except Failure Unit × Session σ) :=
  session.call (session.backend.copyRequest source target) Answer.copied
    (Backend.copied source target)

def delete (session : Session σ) (key : String) :
    Except Fault (Except Failure Unit × Session σ) :=
  session.call (session.backend.deleteRequest key) Answer.accepted (Backend.deleted key)

/-- How an attempt at an upload goes: when its request is settled, and with what result. -/
def timing (upload : Upload) (course : Course Unit) : Hedge.Timing (Except Failure Unit) :=
  { after := some course.takes, result := course.result.mapError upload.refused }

/-- Polls an upload whenever something becomes due. Its effects happen at those times. -/
def follow (upload : Upload) (primary hedge : Hedge.Timing (Except Failure Unit)) :
    Upload × Timed :=
  let delay := upload.hedgeDelay.nanos
  (Hedge.dueTimes delay primary hedge none).foldl (fun (upload, effects) now =>
    let (upload, more) := upload.poll (Hedge.Run.view delay primary hedge now) ⟨now⟩
    (upload, effects ++ more.map fun effect => (now, effect))) (upload, [])

/-- Lets an upload race. The store handles the request of the primary before that of the hedge;
there is a hedge if the primary takes longer than the delay. An exchange that is not over when
the race ends is let go. -/
def race (session : Session σ) (upload : Upload) (first : List Effect) :
    Except Fault (Except Failure Unit × Session σ) := do
  let attempts := session.backend.maxAttempts
  let delay := upload.hedgeDelay.nanos
  let settle := session.link.settle attempts Answer.accepted upload.request
  let (primary, store) := settle session.store
  let (hedge, store) :=
    if delay < primary.takes then settle store
    else (({ result := primary.result, exchanges := [] } : Course Unit), store)
  let primaryTiming := timing upload primary
  let hedgeTiming := { timing upload hedge with
    after := if delay < primary.takes then some hedge.takes else none }
  let (after, told) := follow upload primaryTiming hedgeTiming
  let takes := ((told.map (·.1)).max?).getD 0
  let answers :=
    answered {} .put 0 primary.exchanges ++ answered {} .put delay hedge.exchanges
  let inTime := answers.filter fun effect => effect.1 ≤ takes
  let effects := (first.map fun effect => (0, effect)) ++
    (inTime ++ told).mergeSort fun a b => a.1 ≤ b.1
  return (after.result?.getD primaryTiming.result, ← session.pass store takes effects)

/-- Uploads an object. -/
def upload (session : Session σ) (key : String) (data : Bytes) (options : UploadOptions) :
    Except Fault (Except Failure Unit × Session σ) :=
  match session.backend.upload key data options with
  | .ok (upload, first) => session.race upload first
  | .error failure => .ok (.error failure, session)

end Session

end HedgedStore

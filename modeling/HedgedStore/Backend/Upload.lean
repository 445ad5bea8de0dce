import HedgedStore.Backend.Basic
import HedgedStore.Gzip.Member
import HedgedStore.Hedge.Race
import HedgedStore.Store.Request
import HedgedStore.Upload.Options

/-! Uploading an object. The request is prepared once; both attempts of the race send it as it is,
so the store may carry it out twice. An upload advances when it is polled and leaves effects; when
its race is over it is measured and told of, whatever the result. -/
namespace HedgedStore

structure Upload where
  key : String
  options : UploadOptions
  request : Request
  hedgeDelay : Duration
  phase : Hedge.Phase (Except Failure Unit) := .created

namespace Backend

def putRequest (backend : Backend) (key : String) (body : Bytes) (options : UploadOptions) :
    Request :=
  let encoding := if options.compress then [("content-encoding", Gzip.encodingName)] else []
  let cacheControl := match options.cacheControl with
    | some cacheControl => [("cache-control", cacheControl)]
    | none => []
  let condition :=
    if options.immutable && backend.conditionalWrites then [("if-match", "")] else []
  { method := .put
    bucket := backend.bucket
    key := some (backend.objectKey key)
    headers := [
      ("content-length", toString body.length),
      ("content-type", options.resolvedContentType)] ++ encoding ++ cacheControl ++ condition
    body }

/-- An upload of a body that is ready to be sent. -/
def prepare (backend : Backend) (key : String) (body : Bytes) (options : UploadOptions) : Upload :=
  { key, options, request := backend.putRequest key body options
    hedgeDelay := backend.hedgeDelay }

/-- Begins an upload. The data are compressed first, if that is asked for, and measured at once;
where that fails the upload is over. -/
def upload (backend : Backend) (key : String) (data : Bytes) (options : UploadOptions) :
    Except Failure (Upload × List Effect) :=
  if options.compress then
    match Gzip.compress data with
    | .ok body =>
      let ratio := Gzip.ratio body.length data.length
      .ok (backend.prepare key body options, [.measure (.compressRatio ratio)])
    | .error cause => .error (.compress key cause)
  else .ok (backend.prepare key data options, [])

end Backend

namespace Upload

def refused (upload : Upload) (why : Refusal) : Failure := Backend.refused .upload upload.key why

/-- The effects of an action of the race. Its events lie inside a span with the key. -/
def effects (upload : Upload) (action : Hedge.Action) : List Effect :=
  let measured := match action with
    | .countLaunch => [.measure .hedgeLaunched]
    | .countWin => [.measure .hedgeAdopted]
    | _ => []
  let told := (action.event? upload.hedgeDelay).toList.map fun event =>
    Effect.tell (event.within "s3_put" [("key", .text upload.key)])
  measured ++ told

def event (upload : Upload) (outcome : Hedge.Outcome (Except Failure Unit))
    (elapsed : Duration) : LogEvent :=
  .debug Backend.logTarget "S3 PUT" ([
    ("key", .text upload.key),
    ("size", .count upload.request.body.length),
    ("compress", .flag upload.options.compress),
    ("content_type", .text upload.options.resolvedContentType),
    ("immutable", .flag upload.options.immutable),
    ("hedged", .flag outcome.hedged),
    ("winner", .text outcome.winner.name),
    ("elapsed", .duration elapsed)] ++ Backend.errorField outcome.result)

/-- Moves on to a phase by actions. The step that ends the race ends the upload. -/
def step (upload : Upload) (next : Hedge.Phase (Except Failure Unit) × List Hedge.Action)
    (elapsed : Duration) : Upload × List Effect :=
  let ending := match upload.phase.outcome?, next.1.outcome? with
    | none, some outcome =>
      [.measure (.uploadSize upload.request.body.length), .tell (upload.event outcome elapsed)]
    | _, _ => []
  ({ upload with phase := next.1 }, next.2.flatMap upload.effects ++ ending)

/-- Polls the upload; `elapsed` is the time since it began. -/
def poll (upload : Upload) (view : Hedge.View (Except Failure Unit)) (elapsed : Duration) :
    Upload × List Effect :=
  upload.step (upload.phase.poll view) elapsed

def drop (upload : Upload) (elapsed : Duration) : Upload × List Effect :=
  upload.step upload.phase.drop elapsed

def result? (upload : Upload) : Option (Except Failure Unit) :=
  upload.phase.outcome?.map (·.result)

end Upload

end HedgedStore

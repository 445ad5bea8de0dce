import HedgedStore.Backend.Failure
import HedgedStore.Config.Credentials
import HedgedStore.Config.Validity
import HedgedStore.Log
import HedgedStore.Metrics.Measurement
import HedgedStore.Store.Answer

/-! A backend: one bucket of a store, in which all keys of the backend begin alike. -/
namespace HedgedStore

structure Backend where
  bucket : String
  keyPrefix : String
  endpoint : Option String
  /-- Whether immutable objects are written on the condition that they do not exist. -/
  conditionalWrites : Bool
  hedgeDelay : Duration
  maxAttempts : Nat
deriving DecidableEq, Inhabited, Repr

inductive Effect where
  | tell (event : LogEvent)
  | measure (measurement : Measurement)
deriving DecidableEq, Repr

namespace Backend

def logTarget : String := "ctlog_s3::s3"

def ofConfig (config : StoreConfig) : Except Failure Backend := do
  if let some why := config.invalidity? then
    throw (.configuration why.report)
  match config.credentials with
  | .error why => throw (.configuration why.message)
  | .ok _ => return {
      bucket := config.bucket
      keyPrefix := config.keyPrefix
      endpoint := config.endpoint
      conditionalWrites := config.usesConditionalWrites
      hedgeDelay := config.hedgeDelay
      maxAttempts := config.maxAttempts.toNat }

def creation (config : StoreConfig) : LogEvent :=
  .debug logTarget "created S3 backend" [
    ("region", .plain config.region),
    ("bucket", .plain config.bucket),
    ("endpoint", .text (config.endpoint.getD "")),
    ("key_prefix", .plain config.keyPrefix)]

def shown (backend : Backend) : Text.Shown :=
  .record "S3Backend" [
    ("bucket", .quoted backend.bucket),
    ("key_prefix", .quoted backend.keyPrefix),
    ("endpoint", .option (backend.endpoint.map .quoted)),
    ("conditional_writes", .bool backend.conditionalWrites),
    ("hedge_delay", .plain backend.hedgeDelay.text)] true

/-- The key by which the store knows an object of this backend. -/
def objectKey (backend : Backend) (key : String) : String := backend.keyPrefix ++ key

def refused (operation : Operation) (key : String) (why : Refusal) : Failure :=
  .network operation key why.status why.detail why.cause

def errorField {α : Type} : Except Failure α → LogFields
  | .ok _ => []
  | .error failure => [("error", .plain failure.message)]

end Backend

end HedgedStore

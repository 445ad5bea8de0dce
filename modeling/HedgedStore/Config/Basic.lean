import HedgedStore.Duration
import HedgedStore.Text.Shown

/-! The configuration of a backend and of the program's log. -/
namespace HedgedStore

structure StoreConfig where
  region : String
  bucket : String
  endpoint : Option String := none
  /-- Stands in front of every key. -/
  keyPrefix : String := ""
  accessKey : Option String := none
  secretKey : Option String := none
  /-- Address buckets below the endpoint instead of in front of it. -/
  forcePathStyle : Bool := false
  /-- Write immutable objects on the condition that they do not exist. By default that hangs on
  the endpoint. -/
  conditionalWrites : Option Bool := none
  hedgeDelayMs : UInt64 := 75
  maxBackoffMs : UInt64 := 5
  /-- How often a request is sent at most, the first time included. -/
  maxAttempts : UInt32 := 3
deriving DecidableEq, Inhabited, Repr

structure LoggingConfig where
  level : String := "info"
  json : Bool := false
deriving DecidableEq, Inhabited, Repr

structure Config where
  store : StoreConfig
  logging : LoggingConfig := {}
deriving DecidableEq, Inhabited, Repr

namespace StoreConfig

/-- The endpoint that is known to create only on an empty condition. -/
def createOnlyEndpoint : String := "https://fly.storage.tigris.dev"

/-- Whether immutable objects are written on the condition that they do not exist. -/
def usesConditionalWrites (config : StoreConfig) : Bool :=
  config.conditionalWrites.getD (config.endpoint == some createOnlyEndpoint)

def hedgeDelay (config : StoreConfig) : Duration := .ofMillis config.hedgeDelayMs.toNat

def maxBackoff (config : StoreConfig) : Duration := .ofMillis config.maxBackoffMs.toNat

/-- The configuration as it may be shown: of the secret key only that there is one. -/
def shown (config : StoreConfig) : Text.Shown :=
  .record "S3Config" [
    ("region", .quoted config.region),
    ("bucket", .quoted config.bucket),
    ("endpoint", .option (config.endpoint.map .quoted)),
    ("key_prefix", .quoted config.keyPrefix),
    ("access_key", .option (config.accessKey.map .quoted)),
    ("secret_key", .option (config.secretKey.map fun _ => .quoted "[REDACTED]")),
    ("force_path_style", .bool config.forcePathStyle),
    ("conditional_writes", .option (config.conditionalWrites.map .bool)),
    ("hedge_delay_ms", .nat config.hedgeDelayMs.toNat),
    ("max_backoff_ms", .nat config.maxBackoffMs.toNat),
    ("max_attempts", .nat config.maxAttempts.toNat)]

end StoreConfig

def LoggingConfig.shown (config : LoggingConfig) : Text.Shown :=
  .record "LoggingConfig" [("level", .quoted config.level), ("json", .bool config.json)]

def Config.shown (config : Config) : Text.Shown :=
  .record "Config" [("s3", config.store.shown), ("logging", config.logging.shown)]

end HedgedStore

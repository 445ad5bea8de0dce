import HedgedStore.Config.Basic
import HedgedStore.Config.Placeholder
import HedgedStore.Yaml.Reading

/-! Reading a configuration from a YAML node. The fields of a record come in any order, each at
most once; unknown ones are passed over; those that were left out take their defaults. Placeholders in
the texts of the store are replaced one field at a time, when its node has been read: what a
variable holds is never looked at as YAML. -/
namespace HedgedStore

open Yaml (Mismatch Place)

/-- A text whose placeholders have given way to their values. -/
def expandedText (environment : Environment) (p : Place) : Except Mismatch String :=
  p.text.map (expand environment)

inductive StoreField where
  | region
  | bucket
  | endpoint
  | keyPrefix
  | accessKey
  | secretKey
  | forcePathStyle
  | conditionalWrites
  | hedgeDelayMs
  | maxBackoffMs
  | maxAttempts
deriving DecidableEq, Repr

namespace StoreField

def all : List StoreField :=
  [region, bucket, endpoint, keyPrefix, accessKey, secretKey, forcePathStyle, conditionalWrites,
    hedgeDelayMs, maxBackoffMs, maxAttempts]

def name : StoreField → String
  | region => "region"
  | bucket => "bucket"
  | endpoint => "endpoint"
  | keyPrefix => "key_prefix"
  | accessKey => "access_key"
  | secretKey => "secret_key"
  | forcePathStyle => "force_path_style"
  | conditionalWrites => "conditional_writes"
  | hedgeDelayMs => "hedge_delay_ms"
  | maxBackoffMs => "max_backoff_ms"
  | maxAttempts => "max_attempts"

def ofName? (s : String) : Option StoreField := all.find? fun field => field.name == s

end StoreField

structure StoreDraft where
  region : Option String := none
  bucket : Option String := none
  endpoint : Option (Option String) := none
  keyPrefix : Option String := none
  accessKey : Option (Option String) := none
  secretKey : Option (Option String) := none
  forcePathStyle : Option Bool := none
  conditionalWrites : Option (Option Bool) := none
  hedgeDelayMs : Option UInt64 := none
  maxBackoffMs : Option UInt64 := none
  maxAttempts : Option UInt32 := none
deriving DecidableEq, Repr

namespace StoreDraft

def has (d : StoreDraft) : StoreField → Bool
  | .region => d.region.isSome
  | .bucket => d.bucket.isSome
  | .endpoint => d.endpoint.isSome
  | .keyPrefix => d.keyPrefix.isSome
  | .accessKey => d.accessKey.isSome
  | .secretKey => d.secretKey.isSome
  | .forcePathStyle => d.forcePathStyle.isSome
  | .conditionalWrites => d.conditionalWrites.isSome
  | .hedgeDelayMs => d.hedgeDelayMs.isSome
  | .maxBackoffMs => d.maxBackoffMs.isSome
  | .maxAttempts => d.maxAttempts.isSome

def read (environment : Environment) (d : StoreDraft) (field : StoreField) (p : Place) :
    Except Mismatch StoreDraft :=
  let text := expandedText environment
  match field with
  | .region => (text p).map fun v => { d with region := some v }
  | .bucket => (text p).map fun v => { d with bucket := some v }
  | .endpoint => (p.option text).map fun v => { d with endpoint := some v }
  | .keyPrefix => (text p).map fun v => { d with keyPrefix := some v }
  | .accessKey => (p.option text).map fun v => { d with accessKey := some v }
  | .secretKey => (p.option text).map fun v => { d with secretKey := some v }
  | .forcePathStyle => p.bool.map fun v => { d with forcePathStyle := some v }
  | .conditionalWrites => (p.option Place.bool).map fun v => { d with conditionalWrites := some v }
  | .hedgeDelayMs => p.word64.map fun v => { d with hedgeDelayMs := some v }
  | .maxBackoffMs => p.word64.map fun v => { d with maxBackoffMs := some v }
  | .maxAttempts => p.word32.map fun v => { d with maxAttempts := some v }

/-- The configuration, if region and bucket were given. -/
def finish (d : StoreDraft) (p : Place) : Except Mismatch StoreConfig := do
  let region ← p.require StoreField.region.name d.region
  let bucket ← p.require StoreField.bucket.name d.bucket
  let usual : StoreConfig := { region, bucket }
  return {
    region
    bucket
    endpoint := d.endpoint.getD usual.endpoint
    keyPrefix := d.keyPrefix.getD usual.keyPrefix
    accessKey := d.accessKey.getD usual.accessKey
    secretKey := d.secretKey.getD usual.secretKey
    forcePathStyle := d.forcePathStyle.getD usual.forcePathStyle
    conditionalWrites := d.conditionalWrites.getD usual.conditionalWrites
    hedgeDelayMs := d.hedgeDelayMs.getD usual.hedgeDelayMs
    maxBackoffMs := d.maxBackoffMs.getD usual.maxBackoffMs
    maxAttempts := d.maxAttempts.getD usual.maxAttempts }

end StoreDraft

def StoreConfig.ofPlace (environment : Environment) (p : Place) :
    Except Mismatch StoreConfig := do
  let draft ← p.readRecord "S3Config" StoreField.ofName? StoreDraft.has
    (StoreDraft.read environment) {}
  draft.finish p

inductive LoggingField where
  | level
  | json
deriving DecidableEq, Repr

def LoggingField.ofName? (s : String) : Option LoggingField :=
  if s == "level" then some .level else if s == "json" then some .json else none

structure LoggingDraft where
  level : Option String := none
  json : Option Bool := none
deriving DecidableEq, Repr

namespace LoggingDraft

def has (d : LoggingDraft) : LoggingField → Bool
  | .level => d.level.isSome
  | .json => d.json.isSome

def read (d : LoggingDraft) (field : LoggingField) (p : Place) : Except Mismatch LoggingDraft :=
  match field with
  | .level => p.text.map fun v => { d with level := some v }
  | .json => p.bool.map fun v => { d with json := some v }

def finish (d : LoggingDraft) : LoggingConfig :=
  let usual : LoggingConfig := {}
  { level := d.level.getD usual.level, json := d.json.getD usual.json }

end LoggingDraft

def LoggingConfig.ofPlace (p : Place) : Except Mismatch LoggingConfig :=
  (p.readRecord "LoggingConfig" LoggingField.ofName? LoggingDraft.has LoggingDraft.read {}).map
    LoggingDraft.finish

inductive ConfigField where
  | store
  | logging
deriving DecidableEq, Repr

def ConfigField.ofName? (s : String) : Option ConfigField :=
  if s == "s3" then some .store else if s == "logging" then some .logging else none

structure ConfigDraft where
  store : Option StoreConfig := none
  logging : Option LoggingConfig := none
deriving DecidableEq, Repr

namespace ConfigDraft

def has (d : ConfigDraft) : ConfigField → Bool
  | .store => d.store.isSome
  | .logging => d.logging.isSome

def read (environment : Environment) (d : ConfigDraft) (field : ConfigField) (p : Place) :
    Except Mismatch ConfigDraft :=
  match field with
  | .store => (StoreConfig.ofPlace environment p).map fun v => { d with store := some v }
  | .logging => (LoggingConfig.ofPlace p).map fun v => { d with logging := some v }

end ConfigDraft

def Config.ofNode (environment : Environment) (root : Yaml.Node) : Except Mismatch Config := do
  let p : Place := ⟨root, [], root⟩
  let draft ← p.readRecord "Config" ConfigField.ofName? ConfigDraft.has
    (ConfigDraft.read environment) {}
  let store ← p.require "s3" draft.store
  return { store, logging := draft.logging.getD {} }

end HedgedStore

import HedgedStore.Backend.Basic
import HedgedStore.Gzip.Member
import HedgedStore.Store.Request

/-! Fetching, listing, copying and deleting. Each call sends one request; what comes of it decides
the call's result and the event that tells of it. -/
namespace HedgedStore.Backend

def fetchRequest (backend : Backend) (key : String) : Request :=
  { method := .get, bucket := backend.bucket, key := some (backend.objectKey key) }

/-- The data of an object that came in. A gzip stream is unpacked. -/
def unpack (key : String) (object : Download) : Except Failure Bytes :=
  if !object.complete then .error (.read key "the body broke off")
  else if object.encoding == some Gzip.encodingName then
    match Gzip.gunzip object.body with
    | .ok data => .ok data
    | .error fault => .error (.decode key fault.message)
  else .ok object.body

/-- Ends a fetch. The event comes before the body is looked at. -/
def fetched (key : String) : Except Refusal Download → Except Failure Bytes × List Effect
  | .error why =>
    let result := .error (refused .fetch key why)
    (result, [.tell (.debug logTarget "S3 GET" ([("key", .text key)] ++ errorField result))])
  | .ok object =>
    (unpack key object, [.tell (.debug logTarget "S3 GET" [
      ("key", .text key),
      ("size", .count (object.length.getD 0)),
      ("encoding", .text (object.encoding.getD ""))])])

def listRequest (backend : Backend) (start : String) : Request :=
  { method := .get
    bucket := backend.bucket
    key := none
    query := [("list-type", "2"), ("prefix", backend.objectKey start)] }

/-- What `s` continues `start` with, if it does. -/
def dropStart? (start s : String) : Option String :=
  if start.toList.isPrefixOf s.toList then some (String.ofList (s.toList.drop start.length))
  else none

/-- The caller's key of a listed object. It must begin as was asked for. -/
def listedKey (backend : Backend) (start : String) : Option String → Except Failure String
  | none => .error (.protocol .list start "nil key")
  | some full =>
    if full.isEmpty then .error (.protocol .list start "nil key")
    else
      match dropStart? (backend.objectKey start) full with
      | some rest => .ok (start ++ rest)
      | none => .error (.protocol .list start ("strange response " ++ Text.quote full))

/-- The caller's keys of a listing, which must be whole. -/
def callerKeys (backend : Backend) (start : String) (listing : Listing) :
    Except Failure (List String) := do
  let keys ← listing.keys.mapM (backend.listedKey start)
  if listing.truncated == some true then
    throw (.protocol .list start "response truncated")
  return keys

/-- Ends a listing. The event comes before the keys are looked at. -/
def listed (backend : Backend) (start : String) :
    Except Refusal Listing → Except Failure (List String) × List Effect
  | .error why =>
    let result := .error (refused .list start why)
    (result, [.tell (.debug logTarget "S3 LIST" ([("prefix", .text start)] ++ errorField result))])
  | .ok listing =>
    (backend.callerKeys start listing, [.tell (.debug logTarget "S3 LIST" [
      ("prefix", .text start), ("count", .count listing.keys.length)])])

/-- A copy names its source in a header, after the bucket. -/
def copyRequest (backend : Backend) (source target : String) : Request :=
  { method := .put
    bucket := backend.bucket
    key := some (backend.objectKey target)
    headers := [("x-amz-copy-source", backend.bucket ++ "/" ++ backend.objectKey source)] }

def copied (source target : String) (result : Except Refusal Unit) :
    Except Failure Unit × List Effect :=
  let result := result.mapError (refused .copy (source ++ " -> " ++ target))
  (result, [.tell (.debug logTarget "S3 COPY"
    ([("from", .text source), ("to", .text target)] ++ errorField result))])

def deleteRequest (backend : Backend) (key : String) : Request :=
  { method := .delete, bucket := backend.bucket, key := some (backend.objectKey key) }

def deleted (key : String) (result : Except Refusal Unit) : Except Failure Unit × List Effect :=
  let result := result.mapError (refused .delete key)
  (result, [.tell (.debug logTarget "S3 DELETE" ([("key", .text key)] ++ errorField result))])

end HedgedStore.Backend

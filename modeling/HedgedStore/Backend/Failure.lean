import HedgedStore.Text.Quoted

/-! The ways in which a call on the backend can fail. Each failure other than one of the
configuration names the key that the caller gave, quoted, so the key ends where its quotes end. -/
namespace HedgedStore

inductive Operation where
  | upload
  | fetch
  | list
  | copy
  | delete
deriving DecidableEq, Inhabited, Repr

def Operation.verb : Operation → String
  | .upload => "upload"
  | .fetch => "fetch"
  | .list => "list"
  | .copy => "copy"
  | .delete => "delete"

inductive Failure where
  | configuration (reason : String)
  | compress (key cause : String)
  /-- The request was not answered, or not with success: `status` is that of the answer. -/
  | network (operation : Operation) (key : String) (status : Option Nat) (detail cause : String)
  /-- The body was announced as a gzip stream and is none. -/
  | decode (key cause : String)
  | read (key cause : String)
  /-- The answer says something that it must not say. -/
  | protocol (operation : Operation) (key reason : String)
deriving DecidableEq, Repr

namespace Failure

def status : Failure → Option Nat
  | .network _ _ status _ _ => status
  | _ => none

/-- A create-only write was turned down because the object exists. -/
def isPreconditionFailed (failure : Failure) : Bool := failure.status == some 412

def cause : Failure → Option String
  | .compress _ cause | .network _ _ _ _ cause | .decode _ cause | .read _ cause => some cause
  | .configuration _ | .protocol _ _ _ => none

/-- The failure in one line, down to what its cause says. -/
def message : Failure → String
  | .configuration reason => "Configuration error: " ++ reason
  | .compress key cause => "failed to compress " ++ Text.quote key ++ ": " ++ cause
  | .network operation key _ detail _ =>
    "failed to " ++ operation.verb ++ " " ++ Text.quote key ++ " on S3: " ++ detail
  | .decode key cause => "failed to decompress " ++ Text.quote key ++ " from S3: " ++ cause
  | .read key cause => "failed to read " ++ Text.quote key ++ " from S3: " ++ cause
  | .protocol operation key reason =>
    "failed to " ++ operation.verb ++ " " ++ Text.quote key ++ " from S3: " ++ reason

end Failure

end HedgedStore

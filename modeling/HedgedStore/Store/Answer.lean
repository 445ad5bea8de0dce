import HedgedStore.Bytes
import HedgedStore.Store.Markup

/-! What a store answers, and what its answer means for the request: success with what was asked
for, or a refusal. -/
namespace HedgedStore

structure Answer where
  status : Nat
  headers : List (String × String) := []
  body : Bytes := []
  /-- The body came to its announced end. -/
  complete : Bool := true
deriving DecidableEq, Inhabited, Repr

structure Refusal where
  status : Option Nat
  detail : String
  cause : String
deriving DecidableEq, Inhabited, Repr

inductive Verdict (α : Type) where
  | success (a : α)
  /-- The request did not succeed; another attempt may. -/
  | retry (why : Refusal)
  | failure (why : Refusal)
deriving Repr

structure Download where
  encoding : Option String
  length : Option Nat
  body : Bytes
  /-- The body came to its announced end. -/
  complete : Bool
deriving DecidableEq, Inhabited, Repr

/-- The objects of a bucket whose keys begin in a certain way. -/
structure Listing where
  /-- The full keys, as far as the entries have them. -/
  keys : List (Option String)
  /-- There is more than is listed. -/
  truncated : Option Bool
deriving DecidableEq, Inhabited, Repr

namespace Answer

/-- The value of a header; its name is compared without regard to case. -/
def header? (answer : Answer) (name : String) : Option String :=
  (answer.headers.find? fun header => header.1.toLower == name).map (·.2)

def isSuccess (answer : Answer) : Bool := answer.status / 100 == 2

def markup? (answer : Answer) : Option Markup.Element :=
  (String.fromUTF8? ⟨answer.body.toArray⟩).bind Markup.root?

/-- The code by which the store says what is wrong. -/
def errorCode? (answer : Answer) : Option String := do
  let root ← answer.markup?
  if root.name ≠ "Error" then none
  else (← root.last? "Code").data?

/-- The codes of troubles that pass. -/
def passingCodes : List String :=
  ["SlowDown", "InternalError", "RequestTimeout", "RequestTimeoutException", "Throttling",
    "ThrottlingException", "ThrottledException", "RequestThrottled",
    "RequestThrottledException", "TooManyRequestsException", "RequestLimitExceeded",
    "BandwidthLimitExceeded", "LimitExceededException", "PriorRequestNotComplete",
    "ProvisionedThroughputExceededException", "TransactionInProgressException",
    "EC2ThrottledException"]

/-- The store is in trouble that may pass. -/
def isPassing (answer : Answer) : Bool :=
  [500, 502, 503, 504].contains answer.status ||
    answer.errorCode?.any passingCodes.contains

def refusal (answer : Answer) : Refusal :=
  { status := some answer.status
    detail := "the store answered " ++ toString answer.status
    cause := answer.errorCode?.getD "no error code" }

def unintelligible (answer : Answer) : Refusal :=
  { status := some answer.status, detail := "unintelligible answer", cause := "malformed body" }

def refused {α : Type} (answer : Answer) : Verdict α :=
  if answer.isPassing then .retry answer.refusal else .failure answer.refusal

/-- The meaning of an answer whose body is read at once; one cut short may come whole later. -/
def verdict {α : Type} (read : Answer → Option α) (answer : Answer) : Verdict α :=
  if !answer.isSuccess then answer.refused
  else if !answer.complete then .retry answer.unintelligible
  else match read answer with
  | some a => .success a
  | none => .failure answer.unintelligible

def accepted (answer : Answer) : Verdict Unit := answer.verdict fun _ => some ()

/-- An answer to a copy. The error may come late, behind the status of a success. -/
def copied (answer : Answer) : Verdict Unit :=
  if answer.isSuccess ∧ answer.complete ∧ answer.markup?.any (·.name == "Error") then
    answer.refused
  else answer.verdict fun answer =>
    if answer.body.isEmpty ∨ answer.markup?.any (·.name == "CopyObjectResult") then some ()
    else none

def number? (s : String) : Option Nat :=
  if s.toList.all Char.isDigit then s.toNat? else none

/-- An answer that brings an object; its body is still to come. -/
def download (answer : Answer) : Verdict Download :=
  if !answer.isSuccess then answer.refused
  else .success {
    encoding := answer.header? "content-encoding"
    length := (answer.header? "content-length").bind number?
    body := answer.body
    complete := answer.complete }

def truth? : String → Option Bool
  | "true" => some true
  | "false" => some false
  | _ => none

/-- The key of an entry of a listing. An entry with a size that is no number is none. -/
def entryKey? (entry : Markup.Element) : Option (Option String) := do
  if let some size := entry.last? "Size" then
    let _ ← number? (← size.data?)
  match entry.last? "Key" with
  | some key => return some (← key.data?)
  | none => return none

def listing? (answer : Answer) : Option Listing := do
  let root ← answer.markup?
  if root.name ≠ "ListBucketResult" then none
  else
    let keys ← (root.children.filter (·.name == "Contents")).mapM entryKey?
    match root.last? "IsTruncated" with
    | some flag => return { keys, truncated := some (← truth? (← flag.data?)) }
    | none => return { keys, truncated := none }

def listed (answer : Answer) : Verdict Listing := answer.verdict listing?

end Answer

end HedgedStore

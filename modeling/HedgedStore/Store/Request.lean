import HedgedStore.Bytes

/-! Requests to a store of objects in buckets, and the form in which they travel. -/
namespace HedgedStore

inductive Method where
  | put
  | get
  | delete
deriving DecidableEq, Inhabited, Repr

def Method.name : Method → String
  | .put => "PUT"
  | .get => "GET"
  | .delete => "DELETE"

structure Request where
  method : Method
  bucket : String
  /-- The full key of an object; a request without one is about the whole bucket. -/
  key : Option String
  query : List (String × String) := []
  headers : List (String × String) := []
  body : Bytes := []
deriving DecidableEq, Inhabited, Repr

namespace Request

def header? (request : Request) (name : String) : Option String := request.headers.lookup name

/-- A character that a header's value can hold. -/
def isHeaderChar (c : Char) : Bool := c == '\t' || (c.toNat ≥ 0x20 && c.toNat ≠ 0x7F)

/-- A request can be sent if it names an object whose key is not empty, or the bucket, and its
headers hold no control characters. -/
def isSendable (request : Request) : Bool :=
  request.key != some "" &&
    request.headers.all fun header => header.2.toList.all isHeaderChar

/-- A byte that an address shows as it is: a letter, a digit, or one of four marks. -/
def isPlainByte (b : UInt8) : Bool :=
  let c := Char.ofNat b.toNat
  b < 0x80 && (c.isAlphanum || c == '-' || c == '.' || c == '_' || c == '~')

/-- Writes bytes that are not plain as a percent sign and two hexadecimal digits. -/
def percentEncode (alsoPlain : UInt8 → Bool) (s : String) : String :=
  String.ofList (s.toUTF8.data.toList.flatMap fun b =>
    if isPlainByte b || alsoPlain b then [Char.ofNat b.toNat]
    else ['%', (Nat.digitChar (b.toNat / 16)).toUpper, (Nat.digitChar (b.toNat % 16)).toUpper])

/-- The path below the store's own: the bucket, and the key with its slashes kept. -/
def path (request : Request) : String :=
  "/" ++ request.bucket ++ "/" ++ percentEncode (· == 0x2F) (request.key.getD "")

/-- The query in which slashes are encoded, too. -/
def queryText (request : Request) : String :=
  "&".intercalate (request.query.map fun entry =>
    entry.1 ++ "=" ++ percentEncode (fun _ => false) entry.2)

end Request

end HedgedStore

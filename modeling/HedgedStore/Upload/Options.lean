import HedgedStore.Text.Shown

/-! What a caller can ask of one upload, and the headers that follow from it. -/
namespace HedgedStore

structure UploadOptions where
  /-- An absent or empty type stands for `UploadOptions.defaultContentType`. -/
  contentType : Option String := none
  /-- Send the body as a gzip stream and say so. -/
  compress : Bool := false
  /-- The object is never overwritten: let it be cached for long and, where the store can,
  created only. -/
  immutable : Bool := false
deriving DecidableEq, Inhabited, Repr

namespace UploadOptions

def defaultContentType : String := "application/octet-stream"

/-- The caching of an object that never changes, seven days long. -/
def immutableCacheControl : String := "public, max-age=604800, immutable"

def resolvedContentType (options : UploadOptions) : String :=
  match options.contentType with
  | some contentType => if contentType.isEmpty then defaultContentType else contentType
  | none => defaultContentType

def cacheControl (options : UploadOptions) : Option String :=
  if options.immutable then some immutableCacheControl else none

def shown (options : UploadOptions) : Text.Shown :=
  .record "UploadOptions" [
    ("content_type", .option (options.contentType.map .quoted)),
    ("compress", .bool options.compress),
    ("immutable", .bool options.immutable)]

end UploadOptions

end HedgedStore

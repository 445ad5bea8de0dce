import HedgedStore.Backend.Upload
import HedgedStore.Proofs.Gzip.RoundTrip

/-! How an upload begins. Data can always be compressed, so there is always a body to be sent, and
no upload fails before its race. -/
namespace HedgedStore

namespace UploadOptions

/-- The body that is sent for some data. -/
def wireBody (options : UploadOptions) (data : Bytes) : Bytes :=
  if options.compress then Gzip.gzip data else data

/-- What is measured before the race. -/
def measured (options : UploadOptions) (data : Bytes) : List Effect :=
  if options.compress then
    [.measure (.compressRatio (Gzip.ratio (options.wireBody data).length data.length))]
  else []

end UploadOptions

namespace Backend

/-- An upload as it goes into its race. -/
def prepared (backend : Backend) (key : String) (data : Bytes) (options : UploadOptions) : Upload :=
  backend.prepare key (options.wireBody data) options

theorem prepared_request (backend : Backend) (key : String) (data : Bytes)
    (options : UploadOptions) :
    (backend.prepared key data options).request =
      backend.putRequest key (options.wireBody data) options := rfl

theorem upload_eq (backend : Backend) (key : String) (data : Bytes) (options : UploadOptions) :
    backend.upload key data options =
      .ok (backend.prepared key data options, options.measured data) := by
  cases compress : options.compress with
  | false =>
    have body : options.wireBody data = data := by simp [UploadOptions.wireBody, compress]
    simp [upload, prepared, body, UploadOptions.measured, compress]
  | true =>
    have body : options.wireBody data = Gzip.gzip data := by simp [UploadOptions.wireBody, compress]
    simp [upload, prepared, body, UploadOptions.measured, compress, Gzip.compress_eq]

end Backend

end HedgedStore

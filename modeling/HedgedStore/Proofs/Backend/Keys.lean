import HedgedStore.Backend.Calls
import HedgedStore.Proofs.Gzip.RoundTrip
import HedgedStore.Proofs.Steps
import HedgedStore.Proofs.Store.Contract
import Mathlib.Data.Set.List

/-! Keys on their way to the store and back, and the requests of the calls. A key is put behind the
common beginning of all keys of a backend, and a listed key is relieved of it. -/
namespace HedgedStore

theorem toList_prefix_iff {start s : String} :
    start.toList <+: s.toList ↔ ∃ rest, s = start ++ rest := by
  constructor
  · rintro ⟨rest, same⟩
    exact ⟨String.ofList rest, by rw [← String.toList_inj]; simp [same]⟩
  · rintro ⟨rest, rfl⟩
    exact ⟨rest.toList, by simp⟩

/-- The content type can stand in a header. -/
def UploadOptions.isSpeakable (options : UploadOptions) : Bool :=
  options.resolvedContentType.toList.all Request.isHeaderChar

namespace Backend

theorem dropStart_eq_some {start s rest : String} :
    dropStart? start s = some rest ↔ s = start ++ rest := by
  unfold dropStart?
  constructor
  · intro found
    split at found
    · rename_i begins
      obtain ⟨tail, rfl⟩ := toList_prefix_iff.mp (List.isPrefixOf_iff_prefix.mp begins)
      obtain rfl := Option.some.inj found
      simp [← String.length_toList]
    · cases found
  · rintro rfl
    simp [← String.length_toList]

variable (backend : Backend) (start : String)

theorem listedKey_append {rest : String} (nonempty : backend.objectKey start ++ rest ≠ "") :
    backend.listedKey start (some (backend.objectKey start ++ rest)) = .ok (start ++ rest) := by
  have some_key : (backend.objectKey start ++ rest).isEmpty = false := by
    simpa using nonempty
  have dropped : dropStart? (backend.objectKey start) (backend.objectKey start ++ rest) =
      some rest := dropStart_eq_some.mpr rfl
  simp only [listedKey, some_key, dropped]
  rfl

/-! The requests. -/

theorem fetchRequest_concerns (key : String) :
    (backend.fetchRequest key).Concerns .get backend.bucket (some (backend.objectKey key)) :=
  ⟨rfl, rfl, rfl⟩

theorem deleteRequest_concerns (key : String) :
    (backend.deleteRequest key).Concerns .delete backend.bucket (some (backend.objectKey key)) :=
  ⟨rfl, rfl, rfl⟩

theorem listRequest_concerns : (backend.listRequest start).Concerns .get backend.bucket none :=
  ⟨rfl, rfl, rfl⟩

theorem fetchRequest_sendable {key : String} (nonempty : backend.objectKey key ≠ "") :
    (backend.fetchRequest key).isSendable = true := by
  simp [Request.isSendable, fetchRequest, nonempty]

theorem deleteRequest_sendable {key : String} (nonempty : backend.objectKey key ≠ "") :
    (backend.deleteRequest key).isSendable = true := by
  simp [Request.isSendable, deleteRequest, nonempty]

theorem listRequest_sendable : (backend.listRequest start).isSendable = true := by
  simp [Request.isSendable, listRequest]

theorem isHeaderChar_of_isDigit {c : Char} (digit : c.isDigit = true) :
    Request.isHeaderChar c = true := by
  simp only [Char.isDigit, Bool.and_eq_true, decide_eq_true_eq, ge_iff_le] at digit
  have low : 48 ≤ c.toNat := UInt32.le_iff_toNat_le.mp digit.1
  have high : c.toNat ≤ 57 := UInt32.le_iff_toNat_le.mp digit.2
  simp only [Request.isHeaderChar, Bool.or_eq_true, Bool.and_eq_true, decide_eq_true_eq]
  right
  omega

theorem digits_speakable (n : Nat) :
    (Nat.toDigits 10 n).all Request.isHeaderChar = true := by
  simp only [List.all_eq_true]
  intro c member
  exact isHeaderChar_of_isDigit (Nat.isDigit_of_mem_toDigits (by decide) (by decide) member)

theorem putRequest_sendable {key : String} (nonempty : backend.objectKey key ≠ "") (body : Bytes)
    (options : UploadOptions) :
    (backend.putRequest key body options).isSendable = options.isSpeakable := by
  have named : (some (backend.objectKey key) != some "") = true := by simp [nonempty]
  have encoding : Gzip.encodingName.toList.all Request.isHeaderChar = true := by decide
  have caching : UploadOptions.immutableCacheControl.toList.all Request.isHeaderChar = true := by
    decide
  rcases options with ⟨contentType, _ | _, _ | _⟩ <;> cases h : backend.conditionalWrites <;>
    simp [Request.isSendable, putRequest, UploadOptions.isSpeakable, named, encoding, caching, h,
      digits_speakable, UploadOptions.cacheControl]

end Backend

end HedgedStore

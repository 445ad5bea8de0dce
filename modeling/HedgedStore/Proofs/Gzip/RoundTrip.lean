import HedgedStore.Proofs.Gzip.Acceptance
import HedgedStore.Proofs.Gzip.Stored
import HedgedStore.Proofs.Gzip.Tailored

/-! What is written is a member, and it is read back. Each of the encoders makes a stream for the
data by itself, so it does not matter which is taken, and no copy reaches back before the data. -/
namespace HedgedStore.Gzip

theorem shorter_cases (a b : Bytes) : shorter a b = a ∨ shorter a b = b := by
  rw [shorter]
  split
  · exact .inr rfl
  · exact .inl rfl

theorem deflated_deflate (blank : Option UInt8) (data : Bytes) :
    Deflated blank (deflate data) data := by
  rw [deflate]
  rcases shorter_cases (store data)
    (shorter (encodeFixed (phrases data)) (encodeTailored (phrases data))) with stored | coded
  · rw [stored]
    exact deflated_store data
  · rw [coded]
    rcases shorter_cases (encodeFixed (phrases data)) (encodeTailored (phrases data)) with
      fixed | tailored
    · rw [fixed]
      exact deflated_encodeFixed blank data
    · rw [tailored]
      exact deflated_encodeTailored blank data

/-- The header without optional fields. -/
def Header.plain : Header where
  flags := 0
  about := [0, 0, 0, 0, 0, 0xff]
  extra := []
  name := []
  comment := []
  check := []
  reserved := by decide
  about_length := rfl
  extra_flagged := rfl
  name_flagged := rfl
  comment_flagged := rfl
  check_flagged := rfl

theorem member_gzip (blank : Option UInt8) (data : Bytes) : Member blank data (gzip data) := by
  refine ⟨Header.plain, deflate data, (crc32 data).toNat, deflated_deflate blank data,
    isCheck_iff.mpr rfl, ?_⟩
  have length : littleEndian 4 (data.length % 2 ^ 32) = littleEndian 4 data.length :=
    littleEndian_mod 4 data.length
  rw [gzip, trailer, ← littleEndian_eq, ← littleEndian_eq, length, List.append_assoc]
  rfl

theorem gunzip_gzip (data : Bytes) : gunzip (gzip data) = .ok data :=
  gunzipWith_eq_ok.mpr ⟨gzip data, [], member_gzip (some 0) data, (List.append_nil _).symm⟩

/-- Memory refuses no piece, and the pieces make up the member. -/
theorem compress_eq (data : Bytes) : compress data = .ok (gzip data) := rfl

/-- Data is always compressed, to a member that holds it, and reading that gives it back. -/
theorem gzip_round_trips (data : Bytes) :
    compress data = .ok (gzip data) ∧ (∀ blank, Member blank data (gzip data)) ∧
      gunzip (gzip data) = .ok data :=
  ⟨compress_eq data, fun blank => member_gzip blank data, gunzip_gzip data⟩

end HedgedStore.Gzip

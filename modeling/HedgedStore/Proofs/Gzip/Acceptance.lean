import HedgedStore.Gzip.Member
import HedgedStore.Proofs.Gzip.Blocks
import HedgedStore.Proofs.Gzip.Checksum
import Mathlib.Data.List.TakeWhile

/-! Reading a member accepts members and nothing else. Each field of the header is passed exactly if
it stands there as the flags announce it, and the trailer exactly if it fits the data. -/
namespace HedgedStore.Gzip

/-- Passing a field succeeds exactly where the field stands, and leaves what follows it. -/
def Passes (skip : Bytes → Except MemberFault Bytes) (Field : Bytes → Prop) (bytes : Bytes) :
    Prop :=
  ∀ rest, skip bytes = .ok rest ↔ ∃ field, Field field ∧ bytes = field ++ rest

theorem takeBytes_eq_ok {n : Nat} {bytes taken rest : Bytes} :
    takeBytes n bytes = .ok (taken, rest) ↔ taken.length = n ∧ bytes = taken ++ rest := by
  constructor
  · intro took
    simp only [takeBytes, beq_iff_eq] at took
    split at took
    · rename_i enough
      obtain ⟨rfl, rfl⟩ := Prod.mk.inj (Except.ok.inj took)
      exact ⟨enough, (List.take_append_drop n bytes).symm⟩
    · cases took
  · rintro ⟨rfl, rfl⟩
    simp [takeBytes]

theorem takeWhile_text {text : Bytes} (zeroless : 0 ∉ text) (rest : Bytes) :
    (text ++ 0 :: rest).takeWhile (· != 0) = text := by
  have all : ∀ b ∈ text, (b != 0) = true := fun b member =>
    bne_iff_ne.mpr fun zero => zeroless (zero ▸ member)
  rw [List.takeWhile_append_of_pos all]
  simp

theorem skipText_append {text : Bytes} (zeroless : 0 ∉ text) (rest : Bytes) :
    skipText (text ++ 0 :: rest) =
      if text.length ≤ fieldLimit then .ok rest else .error .fieldTooLong := by
  have found : ((text ++ 0 :: rest).take (fieldLimit + 1)).takeWhile (· != 0) =
      text.take (fieldLimit + 1) := by
    rw [← List.take_takeWhile, takeWhile_text zeroless]
  simp only [skipText, found, List.length_take]
  by_cases fits : text.length ≤ fieldLimit
  · have whole : min (fieldLimit + 1) text.length = text.length := by omega
    rw [whole, if_neg (Nat.not_lt_of_le fits), if_pos fits, List.drop_left]
  · rw [if_neg fits, if_pos (by omega)]

theorem takeWhile_zeroless {text : Bytes} (zeroless : 0 ∉ text) (n : Nat) :
    (text.take n).takeWhile (· != 0) = text.take n := by
  apply List.takeWhile_eq_self_iff.mpr
  intro b member
  exact bne_iff_ne.mpr fun zero => zeroless (zero ▸ List.mem_of_mem_take member)

/-- No more of a text is looked at than it may have, and its end. -/
theorem skipText_long {text : Bytes} (zeroless : 0 ∉ text) (long : fieldLimit < text.length)
    (rest : Bytes) : skipText (text ++ rest) = .error .fieldTooLong := by
  have seen : ((text ++ rest).take (fieldLimit + 1)).takeWhile (· != 0) =
      text.take (fieldLimit + 1) := by
    rw [List.take_append_of_le_length long, takeWhile_zeroless zeroless]
  simp only [skipText, seen, List.length_take_of_le long]
  exact if_pos (Nat.lt_succ_self fieldLimit)

theorem skipText_short {text : Bytes} (zeroless : 0 ∉ text) (short : text.length ≤ fieldLimit) :
    skipText text = .error .truncated := by
  have seen : (text.take (fieldLimit + 1)).takeWhile (· != 0) = text := by
    rw [takeWhile_zeroless zeroless, List.take_of_length_le (Nat.le_succ_of_le short)]
  simp only [skipText, seen, List.drop_length]
  exact if_neg (Nat.not_lt_of_le short)

theorem skipText_endless {text : Bytes} (zeroless : 0 ∉ text) (rest : Bytes) :
    skipText text ≠ .ok rest := by
  by_cases long : fieldLimit < text.length
  · have failed := skipText_long zeroless long []
    rw [List.append_nil] at failed
    rw [failed]
    exact nofun
  · rw [skipText_short zeroless (Nat.le_of_not_lt long)]
    exact nofun

theorem passes_text (bytes : Bytes) : Passes skipText TextField bytes := by
  intro rest
  constructor
  · intro skipped
    by_cases ended : 0 ∈ bytes
    · obtain ⟨text, more, rfl, zeroless⟩ := List.eq_append_cons_of_mem ended
      rw [skipText_append zeroless] at skipped
      split at skipped
      · rename_i fits
        obtain rfl := Except.ok.inj skipped
        exact ⟨text ++ [0], ⟨text, zeroless, fits, rfl⟩, by simp⟩
      · cases skipped
    · exact absurd skipped (skipText_endless ended rest)
  · rintro ⟨_, ⟨text, zeroless, fits, rfl⟩, rfl⟩
    rw [List.append_assoc, List.singleton_append, skipText_append zeroless]
    exact if_pos fits

theorem passes_extra (bytes : Bytes) : Passes skipExtra ExtraField bytes := by
  intro rest
  constructor
  · intro skipped
    obtain ⟨⟨length, more⟩, took, skipped⟩ := bind_eq_ok.mp skipped
    obtain ⟨⟨extra, rest⟩, taken, skipped⟩ := bind_eq_ok.mp skipped
    obtain rfl := Except.ok.inj skipped
    obtain ⟨two, rfl⟩ := takeBytes_eq_ok.mp took
    obtain ⟨count, rfl⟩ := takeBytes_eq_ok.mp taken
    have small := ofLittleEndian_lt length
    rw [two, ← count] at small
    refine ⟨_, ⟨extra, small, rfl⟩, ?_⟩
    rw [← littleEndian_eq, count, ← two, littleEndian_ofLittleEndian, List.append_assoc]
  · rintro ⟨_, ⟨extra, small, rfl⟩, rfl⟩
    rw [← littleEndian_eq]
    have value : ofLittleEndian (littleEndian 2 extra.length) = extra.length := by
      rw [ofLittleEndian_littleEndian]
      exact Nat.mod_eq_of_lt small
    rw [List.append_assoc]
    refine bind_eq_ok.mpr ⟨_, takeBytes_eq_ok.mpr ⟨littleEndian_length 2 _, rfl⟩, ?_⟩
    exact bind_eq_ok.mpr ⟨_, takeBytes_eq_ok.mpr ⟨value.symm, rfl⟩, rfl⟩

theorem shortCheck_iff {covered field : Bytes} :
    ShortCheck covered field ↔ field = littleEndian 2 (crc32 covered).toNat := by
  simp only [ShortCheck, isCheck_iff, exists_eq_left, littleEndian_eq]

theorem passes_check (covered bytes : Bytes) :
    Passes (skipHeaderCheck (covered ++ bytes)) (ShortCheck covered) bytes := by
  intro rest
  simp only [shortCheck_iff]
  have before : (covered ++ bytes).take ((covered ++ bytes).length - bytes.length) = covered :=
    List.take_left' (by rw [List.length_append, Nat.add_sub_cancel])
  constructor
  · intro skipped
    obtain ⟨⟨check, more⟩, took, skipped⟩ := bind_eq_ok.mp skipped
    dsimp only at skipped
    rw [before] at skipped
    split at skipped
    · rename_i same
      obtain rfl := Except.ok.inj skipped
      obtain ⟨two, whole⟩ := takeBytes_eq_ok.mp took
      exact ⟨check, eq_littleEndian_iff.mpr ⟨two, eq_of_beq same⟩, whole⟩
    · cases skipped
  · rintro ⟨check, told, rfl⟩
    obtain ⟨two, same⟩ := eq_littleEndian_iff.mp told
    refine bind_eq_ok.mpr ⟨(check, rest), takeBytes_eq_ok.mpr ⟨two, rfl⟩, ?_⟩
    dsimp only
    rw [before]
    exact if_pos (beq_iff_eq.mpr same)

theorem Passes.flagged {skip : Bytes → Except MemberFault Bytes} {Field : Bytes → Prop}
    {bytes : Bytes} (passes : Passes skip Field bytes) (flags : UInt8) (bit : Nat) :
    Passes (optionalField (flags.toNat.testBit bit) skip) (Flagged flags bit Field) bytes := by
  intro rest
  simp only [optionalField, Flagged]
  split
  · exact passes rest
  · constructor
    · intro skipped
      exact ⟨[], rfl, Except.ok.inj skipped⟩
    · rintro ⟨_, rfl, rfl⟩
      rfl

theorem skipHeader_eq_ok {bytes rest : Bytes} :
    skipHeader bytes = .ok rest ↔ ∃ header : Header, bytes = header.bytes ++ rest := by
  constructor
  · intro skipped
    obtain ⟨⟨start, left⟩, took, skipped⟩ := bind_eq_ok.mp skipped
    obtain ⟨ten, rfl⟩ := takeBytes_eq_ok.mp took
    dsimp only at skipped
    obtain _ | ⟨a, _ | ⟨b, _ | ⟨c, _ | ⟨flags, about⟩⟩⟩⟩ := start
    iterate 4 cases ten
    split at skipped
    · cases skipped
    · rename_i known
      obtain ⟨⟨rfl, rfl, rfl⟩, reserved⟩ : (a = 0x1f ∧ b = 0x8b ∧ c = 8) ∧ flags.toNat < 32 := by
        simpa using known
      obtain ⟨_, extra_passed, skipped⟩ := bind_eq_ok.mp skipped
      obtain ⟨_, name_passed, skipped⟩ := bind_eq_ok.mp skipped
      obtain ⟨_, comment_passed, check_passed⟩ := bind_eq_ok.mp skipped
      obtain ⟨extra, extra_flagged, rfl⟩ := (passes_extra _).flagged flags 2 _ |>.mp extra_passed
      obtain ⟨name, name_flagged, rfl⟩ := (passes_text _).flagged flags 3 _ |>.mp name_passed
      obtain ⟨comment, comment_flagged, rfl⟩ :=
        (passes_text _).flagged flags 4 _ |>.mp comment_passed
      let fields : HeaderFields := ⟨flags, about, extra, name, comment, reserved,
        by simpa using ten, extra_flagged, name_flagged, comment_flagged⟩
      have whole (left : Bytes) : 0x1f :: 0x8b :: 8 :: flags :: about ++
          (extra ++ (name ++ (comment ++ left))) = fields.bytes ++ left := by
        simp [HeaderFields.bytes, fields]
      rw [whole] at check_passed ⊢
      obtain ⟨check, check_flagged, rfl⟩ :=
        (passes_check fields.bytes _).flagged flags 1 _ |>.mp check_passed
      exact ⟨⟨fields, check, check_flagged⟩, (List.append_assoc _ _ _).symm⟩
  · rintro ⟨header, rfl⟩
    let start : Bytes := 0x1f :: 0x8b :: 8 :: header.flags :: header.about
    have whole : header.bytes ++ rest =
        start ++ (header.extra ++ (header.name ++ (header.comment ++ (header.check ++ rest)))) := by
      simp [Header.bytes, HeaderFields.bytes, start]
    have covered : header.bytes ++ rest = header.toHeaderFields.bytes ++ (header.check ++ rest) :=
      List.append_assoc _ _ _
    have ten : start.length = 10 := by simp [start, header.about_length]
    have known : ¬ (start.take 3 != [0x1f, 0x8b, 8] || header.flags.toNat ≥ 32) = true := by
      simpa [start] using header.reserved
    refine bind_eq_ok.mpr ⟨(start, _), takeBytes_eq_ok.mpr ⟨ten, whole⟩, ?_⟩
    refine (if_neg known).trans ?_
    refine bind_eq_ok.mpr ⟨_, (passes_extra _).flagged header.flags 2 _ |>.mpr
      ⟨_, header.extra_flagged, rfl⟩, ?_⟩
    refine bind_eq_ok.mpr ⟨_, (passes_text _).flagged header.flags 3 _ |>.mpr
      ⟨_, header.name_flagged, rfl⟩, ?_⟩
    refine bind_eq_ok.mpr ⟨_, (passes_text _).flagged header.flags 4 _ |>.mpr
      ⟨_, header.comment_flagged, rfl⟩, ?_⟩
    rw [covered]
    exact (passes_check _ _).flagged header.flags 1 _ |>.mpr ⟨_, header.check_flagged, rfl⟩

theorem littleEndian_mod (width n : Nat) :
    littleEndian width (n % 256 ^ width) = littleEndian width n :=
  eq_littleEndian_iff.mpr ⟨littleEndian_length width _, by
    rw [ofLittleEndian_littleEndian, Nat.mod_mod]⟩

theorem skipTrailer_eq_ok {data bytes rest : Bytes} :
    skipTrailer data bytes = .ok rest ↔ ∃ check, IsCheck data check ∧
      bytes = bytesOf 4 check ++ bytesOf 4 (data.length % 2 ^ 32) ++ rest := by
  simp only [isCheck_iff, exists_eq_left, ← littleEndian_eq]
  constructor
  · intro skipped
    obtain ⟨⟨found, left⟩, took, checked⟩ := bind_eq_ok.mp skipped
    obtain ⟨eight, rfl⟩ := takeBytes_eq_ok.mp took
    dsimp only at checked
    split at checked
    · rename_i fits
      obtain rfl := Except.ok.inj checked
      obtain ⟨check, length⟩ := Bool.and_eq_true_iff.mp fits
      have front : found.take 4 = littleEndian 4 (crc32 data).toNat :=
        eq_littleEndian_iff.mpr ⟨by simp [eight], (eq_of_beq check).trans
          (Nat.mod_eq_of_lt (crc32 data).toNat_lt).symm⟩
      have back : found.drop 4 = littleEndian 4 (data.length % 2 ^ 32) :=
        eq_littleEndian_iff.mpr ⟨by simp [eight], (eq_of_beq length).trans
          (Nat.mod_mod data.length (256 ^ 4)).symm⟩
      rw [← front, ← back, List.take_append_drop]
    · cases checked
  · rintro rfl
    have eight : (littleEndian 4 (crc32 data).toNat ++
        littleEndian 4 (data.length % 2 ^ 32)).length = 8 := by simp [littleEndian_length]
    refine bind_eq_ok.mpr ⟨(_, rest), takeBytes_eq_ok.mpr ⟨eight, rfl⟩, if_pos ?_⟩
    have small : (crc32 data).toNat % 256 ^ 4 = (crc32 data).toNat :=
      Nat.mod_eq_of_lt (crc32 data).toNat_lt
    rw [List.take_left' (littleEndian_length 4 _), List.drop_left' (littleEndian_length 4 _),
      ofLittleEndian_littleEndian, ofLittleEndian_littleEndian, small]
    simp

section Members

variable {blank : Option UInt8} {bytes data rest : Bytes}

theorem readMember_eq_ok :
    readMember blank bytes = .ok (data, rest) ↔
      ∃ member, Member blank data member ∧ bytes = member ++ rest := by
  constructor
  · intro read
    obtain ⟨left, header_passed, stream_read⟩ := bind_eq_ok.mp read
    obtain ⟨header, rfl⟩ := skipHeader_eq_ok.mp header_passed
    cases decoded : inflate blank left with
    | error why =>
      rw [decoded] at stream_read
      cases why <;> cases stream_read
    | ok found =>
      rw [decoded] at stream_read
      obtain ⟨_, trailer_passed, same⟩ := bind_eq_ok.mp stream_read
      obtain ⟨rfl, rfl⟩ := Prod.mk.inj (Except.ok.inj same)
      obtain ⟨body, rfl, deflated⟩ := inflate_eq_ok.mp decoded
      obtain ⟨check, is_check, told⟩ := skipTrailer_eq_ok.mp trailer_passed
      rw [told]
      exact ⟨_, ⟨header, body, check, deflated, is_check, rfl⟩, by simp⟩
  · rintro ⟨_, ⟨header, body, check, deflated, is_check, rfl⟩, rfl⟩
    rw [List.append_assoc, List.append_assoc]
    refine bind_eq_ok.mpr ⟨_, skipHeader_eq_ok.mpr ⟨header, rfl⟩, ?_⟩
    rw [inflate_eq_ok.mpr ⟨body, rfl, deflated⟩]
    exact bind_eq_ok.mpr ⟨rest, skipTrailer_eq_ok.mpr ⟨check, is_check, rfl⟩, rfl⟩

theorem gunzipWith_eq_ok :
    gunzipWith blank bytes = .ok data ↔
      ∃ member rest, Member blank data member ∧ bytes = member ++ rest := by
  constructor
  · intro unzipped
    cases read : readMember blank bytes with
    | error why =>
      rw [gunzipWith, read] at unzipped
      cases unzipped
    | ok found =>
      obtain ⟨found, rest⟩ := found
      rw [gunzipWith, read] at unzipped
      obtain rfl := Except.ok.inj unzipped
      obtain ⟨member, whole, split⟩ := readMember_eq_ok.mp read
      exact ⟨member, rest, whole, split⟩
  · rintro ⟨member, rest, whole, split⟩
    rw [gunzipWith, readMember_eq_ok.mpr ⟨member, whole, split⟩]
    rfl

end Members

end HedgedStore.Gzip

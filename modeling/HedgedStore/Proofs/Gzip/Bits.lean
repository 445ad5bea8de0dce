import HedgedStore.Gzip.Bits
import HedgedStore.Proofs.Gzip.Format
import Mathlib.Data.Nat.Digits.Lemmas
import Mathlib.Tactic.Ring

/-! Bits and bytes tell the numbers that they were made of, as far as their width allows, and no
others. They are told as the format has it. -/
namespace HedgedStore.Gzip

/-! The bits and bytes of the format. -/

theorem natBits_eq (width n : Nat) : natBits width n = bitsOf width n := by
  induction width generalizing n with
  | zero => rfl
  | succ width ih =>
    have halved : n.testBit ∘ Nat.succ = (n / 2).testBit :=
      funext fun place => Nat.testBit_succ n place
    rw [natBits, ih, bitsOf, bitsOf, List.range_succ_eq_map, List.map_cons, List.map_map, halved,
      Nat.testBit_zero]
    rfl

theorem ofBits_eq (bits : List Bool) : ofBits bits = valueOf bits := by
  induction bits with
  | nil => rfl
  | cons b bits ih => rw [ofBits, ih, valueOf, valueOf, List.map_cons, Nat.ofDigits_cons]

theorem flatMap_byteBits (bytes : Bytes) : bytes.flatMap byteBits = streamOf bytes := by
  simp only [streamOf, ← natBits_eq]
  rfl

theorem littleEndian_eq (width n : Nat) : littleEndian width n = bytesOf width n := by
  induction width generalizing n with
  | zero => rfl
  | succ width ih =>
    rw [littleEndian, ih, bytesOf, bytesOf, List.range_succ_eq_map, List.map_cons, List.map_map,
      Nat.pow_zero, Nat.div_one]
    refine congrArg _ (List.map_congr_left fun place _ => ?_)
    rw [Nat.div_div_eq_div_mul, ← Nat.pow_succ']
    rfl

/-! Numbers in bits. -/

theorem natBits_length (width n : Nat) : (natBits width n).length = width := by
  induction width generalizing n with
  | zero => rfl
  | succ width ih => simp [natBits, ih]

theorem ofBits_natBits (width n : Nat) : ofBits (natBits width n) = n % 2 ^ width := by
  induction width generalizing n with
  | zero => simp [natBits, ofBits, Nat.mod_one]
  | succ width ih =>
    have low : (n % 2 == 1).toNat = n % 2 := by
      rcases Nat.mod_two_eq_zero_or_one n with h | h <;> simp [h]
    rw [natBits, ofBits, ih, low, Nat.pow_succ', Nat.mod_mul]

theorem ofBits_byteBits (b : UInt8) : ofBits (byteBits b) = b.toNat := by
  rw [byteBits, ofBits_natBits]
  exact Nat.mod_eq_of_lt b.toNat_lt

theorem ofBits_append (low high : List Bool) :
    ofBits (low ++ high) = ofBits low + 2 ^ low.length * ofBits high := by
  induction low with
  | nil => simp [ofBits]
  | cons b low ih =>
    rw [List.cons_append, ofBits, ih, ofBits, List.length_cons, Nat.pow_succ']
    ring

theorem ofBits_lt (bits : List Bool) : ofBits bits < 2 ^ bits.length := by
  induction bits with
  | nil => simp [ofBits]
  | cons b bits ih =>
    have digit : b.toNat ≤ 1 := Bool.toNat_le b
    rw [ofBits, List.length_cons, Nat.pow_succ']
    omega

theorem natBits_ofBits (bits : List Bool) : natBits bits.length (ofBits bits) = bits := by
  induction bits with
  | nil => rfl
  | cons b bits ih =>
    have low : (b.toNat + 2 * ofBits bits) % 2 = b.toNat := by cases b <;> simp
    have high : (b.toNat + 2 * ofBits bits) / 2 = ofBits bits := by cases b <;> simp; omega
    rw [List.length_cons, natBits, ofBits, low, high, ih]
    cases b <;> rfl

theorem byteBits_length (b : UInt8) : (byteBits b).length = 8 := natBits_length 8 _

theorem byteBits_injective {a b : UInt8} (same : byteBits a = byteBits b) : a = b := by
  have numbers := congrArg ofBits same
  rw [ofBits_byteBits, ofBits_byteBits] at numbers
  exact UInt8.toNat_inj.mp numbers

theorem length_flatMap_byteBits (bytes : Bytes) :
    (bytes.flatMap byteBits).length = 8 * bytes.length := by
  induction bytes with
  | nil => rfl
  | cons b bytes ih =>
    rw [List.flatMap_cons, List.length_append, byteBits_length, ih, List.length_cons]
    omega

theorem flatMap_byteBits_injective {a b : Bytes}
    (same : a.flatMap byteBits = b.flatMap byteBits) : a = b := by
  induction a generalizing b with
  | nil =>
    have length := congrArg List.length same
    rw [length_flatMap_byteBits, length_flatMap_byteBits] at length
    exact (List.eq_nil_of_length_eq_zero (by simpa using length.symm)).symm
  | cons x a ih =>
    cases b with
    | nil =>
      have length := congrArg List.length same
      rw [length_flatMap_byteBits, length_flatMap_byteBits] at length
      simp at length
    | cons y b =>
      rw [List.flatMap_cons, List.flatMap_cons] at same
      obtain ⟨first, rest⟩ := List.append_inj same (by rw [byteBits_length, byteBits_length])
      rw [byteBits_injective first, ih rest]

theorem length_bitsOf (width n : Nat) : (bitsOf width n).length = width := by
  rw [← natBits_eq, natBits_length]

theorem length_streamOf (bytes : Bytes) : (streamOf bytes).length = 8 * bytes.length := by
  rw [← flatMap_byteBits, length_flatMap_byteBits]

theorem streamOf_append (front back : Bytes) :
    streamOf (front ++ back) = streamOf front ++ streamOf back := List.flatMap_append

theorem streamOf_injective {a b : Bytes} (same : streamOf a = streamOf b) : a = b := by
  rw [← flatMap_byteBits, ← flatMap_byteBits] at same
  exact flatMap_byteBits_injective same

/-! Numbers in bytes. -/

theorem ofLittleEndian_littleEndian (width n : Nat) :
    ofLittleEndian (littleEndian width n) = n % 256 ^ width := by
  induction width generalizing n with
  | zero => simp [littleEndian, ofLittleEndian, Nat.mod_one]
  | succ width ih =>
    have low : n.toUInt8.toNat = n % 256 := by simp
    rw [littleEndian, ofLittleEndian, ih, low, Nat.pow_succ', Nat.mod_mul]

theorem littleEndian_length (width n : Nat) : (littleEndian width n).length = width := by
  induction width generalizing n with
  | zero => rfl
  | succ width ih => simp [littleEndian, ih]

theorem ofLittleEndian_lt (bytes : Bytes) : ofLittleEndian bytes < 256 ^ bytes.length := by
  induction bytes with
  | nil => simp [ofLittleEndian]
  | cons b bytes ih =>
    have digit := b.toNat_lt
    rw [ofLittleEndian, List.length_cons, Nat.pow_succ']
    omega

theorem littleEndian_ofLittleEndian (bytes : Bytes) :
    littleEndian bytes.length (ofLittleEndian bytes) = bytes := by
  induction bytes with
  | nil => rfl
  | cons b bytes ih =>
    have digit := b.toNat_lt
    have low : (b.toNat + 256 * ofLittleEndian bytes).toUInt8 = b := by
      rw [← UInt8.toNat_inj]
      simp
    have high : (b.toNat + 256 * ofLittleEndian bytes) / 256 = ofLittleEndian bytes := by omega
    rw [List.length_cons, ofLittleEndian, littleEndian, low, high, ih]

/-- Bytes tell a number as far as their width allows. -/
theorem eq_littleEndian_iff {width n : Nat} {bytes : Bytes} :
    bytes = littleEndian width n ↔
      bytes.length = width ∧ ofLittleEndian bytes = n % 256 ^ width := by
  constructor
  · rintro rfl
    exact ⟨littleEndian_length width n, ofLittleEndian_littleEndian width n⟩
  · rintro ⟨rfl, same⟩
    have back := littleEndian_ofLittleEndian (littleEndian bytes.length n)
    rw [littleEndian_length, ofLittleEndian_littleEndian, ← same,
      littleEndian_ofLittleEndian] at back
    exact back

theorem natBits_add (low high n : Nat) :
    natBits (low + high) n = natBits low n ++ natBits high (n / 2 ^ low) := by
  induction low generalizing n with
  | zero => simp [natBits]
  | succ low ih =>
    rw [Nat.add_right_comm, natBits, ih, natBits, Nat.div_div_eq_div_mul, Nat.pow_succ',
      List.cons_append]

theorem byteBits_toUInt8 (n : Nat) : byteBits n.toUInt8 = natBits 8 n := by
  have back := natBits_ofBits (natBits 8 n)
  rw [natBits_length, ofBits_natBits] at back
  rw [byteBits, ← back]
  simp

theorem flatMap_byteBits_littleEndian (width n : Nat) :
    (littleEndian width n).flatMap byteBits = natBits (8 * width) n := by
  induction width generalizing n with
  | zero => rfl
  | succ width ih =>
    rw [littleEndian, List.flatMap_cons, ih, byteBits_toUInt8, Nat.mul_succ, Nat.add_comm,
      natBits_add]
    rfl

end HedgedStore.Gzip

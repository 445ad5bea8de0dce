import HedgedStore.Proofs.Gzip.Bits
import Mathlib.Algebra.CharP.Two
import Mathlib.RingTheory.AdjoinRoot
import Mathlib.Tactic.LinearCombination

/-! The checksum that is computed bit by bit is the check of the format. What is computed so far is
a polynomial too, and it is known up to multiples of the divisor: a bit multiplies it by the unknown,
and a byte is added to its highest powers. In the end it is smaller than the divisor, so it is the
remainder. -/
namespace HedgedStore.Gzip

open Polynomial

/-! Bits as polynomials. -/

theorem polynomialOf_append (front back : List Bool) :
    polynomialOf (front ++ back) = X ^ back.length * polynomialOf front + polynomialOf back := by
  induction front with
  | nil => simp [polynomialOf]
  | cons b front ih =>
    rw [List.cons_append, polynomialOf, ih, polynomialOf, List.length_append]
    cases b
    · simp
    · simp only [if_true]
      ring

theorem polynomialOf_zeros (n : Nat) : polynomialOf (List.replicate n false) = 0 := by
  induction n with
  | zero => rfl
  | succ n ih => simp [List.replicate_succ, polynomialOf, ih]

theorem polynomialOf_xor {a b : List Bool} (same : a.length = b.length) :
    polynomialOf (List.zipWith xor a b) = polynomialOf a + polynomialOf b := by
  induction a generalizing b with
  | nil =>
    obtain rfl := List.eq_nil_of_length_eq_zero same.symm
    simp [polynomialOf]
  | cons x a ih =>
    cases b with
    | nil => cases same
    | cons y b =>
      have rest : a.length = b.length := Nat.succ.inj same
      have twice : (X : (ZMod 2)[X]) ^ b.length + X ^ b.length = 0 := CharTwo.add_self_eq_zero _
      rw [List.zipWith_cons_cons, polynomialOf, ih rest, polynomialOf, polynomialOf,
        List.length_zipWith, rest, Nat.min_self]
      cases x <;> cases y <;> simp only [Bool.false_eq_true, if_true, if_false, Bool.xor_self,
        Bool.xor_false, Bool.xor_true, Bool.not_false]
      · ring
      · ring
      · ring
      · linear_combination -twice

theorem degree_polynomialOf_lt (bits : List Bool) : (polynomialOf bits).degree < bits.length := by
  induction bits with
  | nil => simp [polynomialOf]
  | cons b bits ih =>
    have longer : ((bits.length : Nat) : WithBot Nat) < ((b :: bits).length : Nat) := by
      rw [List.length_cons]
      exact_mod_cast Nat.lt_succ_self _
    have first : (if b then (X : (ZMod 2)[X]) ^ bits.length else 0).degree < (b :: bits).length := by
      cases b
      · simp
      · simpa using longer
    exact (degree_add_le _ _).trans_lt (max_lt first (ih.trans longer))

theorem polynomialOf_injective {a b : List Bool} (length : a.length = b.length)
    (same : polynomialOf a = polynomialOf b) : a = b := by
  induction a generalizing b with
  | nil => exact (List.eq_nil_of_length_eq_zero length.symm).symm
  | cons x a ih =>
    cases b with
    | nil => cases length
    | cons y b =>
      have rest : a.length = b.length := Nat.succ.inj length
      -- the highest coefficient is that of the first bit
      have top (z : Bool) (bits : List Bool) :
          (polynomialOf (z :: bits)).coeff bits.length = if z then 1 else 0 := by
        rw [polynomialOf, coeff_add, coeff_eq_zero_of_degree_lt (degree_polynomialOf_lt bits)]
        cases z <;> simp
      have first : x = y := by
        have coefficients := top x a
        rw [same, rest, top y b] at coefficients
        have apart : (0 : ZMod 2) ≠ 1 := zero_ne_one
        cases x <;> cases y <;> simp_all
      subst first
      rw [polynomialOf, polynomialOf, rest] at same
      rw [ih rest (add_left_cancel same)]

/-! The words of the computation. -/

theorem natBits_zero (width : Nat) : natBits width 0 = List.replicate width false := by
  induction width with
  | zero => rfl
  | succ width ih =>
    rw [natBits, ih]
    rfl

theorem natBits_xor (width a b : Nat) :
    natBits width (a ^^^ b) = List.zipWith xor (natBits width a) (natBits width b) := by
  simp only [natBits_eq, bitsOf, List.zipWith_map, List.zipWith_self]
  exact List.map_congr_left fun i _ => Nat.testBit_xor a b i

/-- What is computed so far, as a polynomial. -/
noncomputable def stateOf (c : UInt32) : (ZMod 2)[X] := polynomialOf (natBits 32 c.toNat)

theorem stateOf_xor (c d : UInt32) : stateOf (c ^^^ d) = stateOf c + stateOf d := by
  rw [stateOf, UInt32.toNat_xor, natBits_xor, polynomialOf_xor (by simp only [natBits_length])]
  rfl

theorem stateOf_byte (b : UInt8) : stateOf b.toUInt32 = X ^ 24 * polynomialOf (byteBits b) := by
  have high : b.toNat / 2 ^ 8 = 0 := Nat.div_eq_of_lt b.toNat_lt
  rw [stateOf, UInt8.toNat_toUInt32, natBits_add 8 24, high, natBits_zero, polynomialOf_append,
    polynomialOf_zeros, List.length_replicate, add_zero]
  rfl

theorem stateOf_ones : stateOf 0xFFFFFFFF = inversion := by
  have bits : natBits 32 (0xFFFFFFFF : UInt32).toNat = List.replicate 32 true := by decide
  rw [stateOf, bits, inversion]

/-- The bits of a word, the lowest one apart. -/
theorem natBits_word (c : UInt32) :
    natBits 32 c.toNat = (c.toNat % 2 == 1) :: natBits 31 (c.toNat / 2) ∧
      natBits 32 (c >>> 1).toNat = natBits 31 (c.toNat / 2) ++ [false] := by
  have small := c.toNat_lt
  have half : c.toNat / 2 / 2 ^ 31 = 0 := by omega
  have shifted : (c >>> 1).toNat = c.toNat / 2 := by
    simp [Nat.shiftRight_eq_div_pow]
  refine ⟨rfl, ?_⟩
  rw [shifted, natBits_add 31 1, half]
  rfl

theorem divisor_eq : divisor = X ^ 32 + stateOf 0xEDB88320 := by
  have bits : natBits 32 (0xEDB88320 : UInt32).toNat =
      [false, false, false, false, false, true, false, false, true, true, false, false, false, false,
        false, true, false, false, false, true, true, true, false, true, true, false, true, true,
        false, true, true, true] := by decide
  rw [stateOf, bits]
  simp only [polynomialOf, List.length_cons, List.length_nil, divisor, Bool.false_eq_true, if_true,
    if_false]
  ring

theorem degree_stateOf_lt (c : UInt32) : (stateOf c).degree < 32 := by
  have small := degree_polynomialOf_lt (natBits 32 c.toNat)
  rwa [natBits_length] at small

theorem monic_divisor : divisor.Monic := by
  rw [divisor_eq]
  exact monic_X_pow_add (degree_stateOf_lt _)

theorem degree_divisor : divisor.degree = 32 := by
  have lower : (stateOf 0xEDB88320).degree < (X ^ 32 : (ZMod 2)[X]).degree := by
    rw [degree_X_pow]
    exact degree_stateOf_lt _
  rw [divisor_eq, degree_add_eq_left_of_degree_lt lower, degree_X_pow]
  rfl

/-! The computation, up to multiples of the divisor. -/

/-- A polynomial up to multiples of the divisor. -/
noncomputable abbrev residue : (ZMod 2)[X] →+* AdjoinRoot divisor := AdjoinRoot.mk divisor

theorem stateOf_crcBit (c : UInt32) :
    stateOf (crcBit c) = X * stateOf c + if c &&& 1 == 1 then divisor else 0 := by
  obtain ⟨whole, shifted⟩ := natBits_word c
  have low : (c &&& 1 == 1) = (c.toNat % 2 == 1) := by
    rw [Bool.eq_iff_iff, beq_iff_eq, beq_iff_eq, ← UInt32.toNat_inj, UInt32.toNat_and]
    exact iff_of_eq (congrArg (· = 1) (Nat.and_one_is_mod _))
  have halved : stateOf (c >>> 1) = X * polynomialOf (natBits 31 (c.toNat / 2)) := by
    rw [stateOf, shifted, polynomialOf_append]
    simp [polynomialOf]
  have twice : (X : (ZMod 2)[X]) ^ 32 + X ^ 32 = 0 := CharTwo.add_self_eq_zero _
  have before : stateOf c = (if c &&& 1 == 1 then X ^ 31 else 0) +
      polynomialOf (natBits 31 (c.toNat / 2)) := by
    rw [stateOf, whole, polynomialOf, natBits_length, low]
  rw [crcBit, before]
  cases c &&& 1 == 1
  · simp only [Bool.false_eq_true, if_false, halved]
    ring
  · simp only [if_true, stateOf_xor, halved, divisor_eq]
    linear_combination -twice

theorem residue_crcBit (c : UInt32) :
    residue (stateOf (crcBit c)) = residue X * residue (stateOf c) := by
  have multiple : residue (if c &&& 1 == 1 then divisor else 0) = 0 := by
    split
    · exact AdjoinRoot.mk_self
    · exact map_zero _
  rw [stateOf_crcBit, map_add, multiple, add_zero, map_mul]

theorem residue_crcByte (c : UInt32) (b : UInt8) :
    residue (stateOf (crcByte c b)) = residue X ^ 8 * residue (stateOf c) +
      residue X ^ 32 * residue (polynomialOf (byteBits b)) := by
  simp only [crcByte, residue_crcBit, stateOf_xor, stateOf_byte, map_add, map_mul, map_pow]
  ring

theorem residue_foldl_crcByte (data : Bytes) (c : UInt32) :
    residue (stateOf (data.foldl crcByte c)) = residue X ^ (8 * data.length) * residue (stateOf c) +
      residue X ^ 32 * residue (polynomialOf (data.flatMap byteBits)) := by
  induction data generalizing c with
  | nil => simp [polynomialOf]
  | cons b data ih =>
    rw [List.foldl_cons, ih, residue_crcByte, List.flatMap_cons, polynomialOf_append,
      length_flatMap_byteBits, List.length_cons, map_add, map_mul, map_pow]
    ring

/-- What has been computed at the end is the remainder. -/
theorem stateOf_foldl_crcByte (data : Bytes) :
    stateOf (data.foldl crcByte 0xFFFFFFFF) =
      (X ^ 32 * polynomialOf (streamOf data) + X ^ (8 * data.length) * inversion) %ₘ divisor := by
  have computed := residue_foldl_crcByte data 0xFFFFFFFF
  rw [stateOf_ones, flatMap_byteBits] at computed
  have same : residue (X ^ 32 * polynomialOf (streamOf data) + X ^ (8 * data.length) * inversion) =
      residue (stateOf (data.foldl crcByte 0xFFFFFFFF)) := by
    rw [computed, map_add, map_mul, map_mul, map_pow, map_pow, add_comm]
  have lower : (stateOf (data.foldl crcByte 0xFFFFFFFF)).degree < divisor.degree := by
    rw [degree_divisor]
    exact degree_stateOf_lt _
  rw [modByMonic_eq_of_dvd_sub monic_divisor (AdjoinRoot.mk_eq_mk.mp same),
    (modByMonic_eq_self_iff monic_divisor).mpr lower]

/-- The checksum is the check, and no other number is. -/
theorem isCheck_iff {data : Bytes} {check : Nat} :
    IsCheck data check ↔ check = (crc32 data).toNat := by
  have ends : polynomialOf (bitsOf 32 (crc32 data).toNat) =
      (X ^ 32 * polynomialOf (streamOf data) + X ^ (8 * data.length) * inversion) %ₘ divisor +
        inversion := by
    rw [← natBits_eq, ← stateOf_foldl_crcByte, ← stateOf_ones, ← stateOf_xor]
    rfl
  constructor
  · rintro ⟨small, told⟩
    rw [← ends, ← natBits_eq, ← natBits_eq] at told
    have bits := polynomialOf_injective (by simp only [natBits_length]) told
    have numbers := congrArg ofBits bits
    rwa [ofBits_natBits, ofBits_natBits, Nat.mod_eq_of_lt small,
      Nat.mod_eq_of_lt (crc32 data).toNat_lt] at numbers
  · rintro rfl
    exact ⟨(crc32 data).toNat_lt, ends⟩

end HedgedStore.Gzip

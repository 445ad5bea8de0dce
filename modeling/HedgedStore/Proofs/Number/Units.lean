import HedgedStore.Proofs.Number.Order
import Mathlib

/-! What binary64 numbers stand for. All finite ones are multiples of the least one above zero, and
their places above zero are in the order of these multiples. A float is the same number, unpacked
into its sign, its significand and its exponent. -/
namespace HedgedStore.Binary64

open Float.Model (UnpackedFloat Format)
open Float.Model.UnpackedFloat (Sign)

/-- The numbers by their place above zero, in units of the least of them. -/
def unitsAt (magnitude : Nat) : Nat :=
  if magnitude < 2 ^ 52 then magnitude
  else (2 ^ 52 + magnitude % 2 ^ 52) * 2 ^ (magnitude / 2 ^ 52 - 1)

def units (x : Binary64) : Nat := x.significand * 2 ^ (x.exponent + 1074).toNat

theorem unitsAt_place {shift m : Nat} (short : m < 2 ^ 53) (normal : shift = 0 ∨ 2 ^ 52 ≤ m) :
    unitsAt (shift * 2 ^ 52 + m) = m * 2 ^ shift := by
  unfold unitsAt
  rcases Nat.lt_or_ge m (2 ^ 52) with small | large
  · obtain rfl : shift = 0 := by omega
    rw [if_pos (by omega)]
    omega
  · rw [if_neg (by omega)]
    have place : (shift * 2 ^ 52 + m) / 2 ^ 52 - 1 = shift := by omega
    have rest : 2 ^ 52 + (shift * 2 ^ 52 + m) % 2 ^ 52 = m := by omega
    rw [place, rest]

/-- The gap above a number. -/
def gapAt (magnitude : Nat) : Nat := 2 ^ (magnitude / 2 ^ 52 - 1)

theorem unitsAt_succ (magnitude : Nat) :
    unitsAt (magnitude + 1) = unitsAt magnitude + gapAt magnitude := by
  unfold unitsAt gapAt
  rcases Nat.lt_trichotomy (magnitude + 1) (2 ^ 52) with small | edge | normal
  · rw [if_pos small, if_pos (by omega), Nat.div_eq_of_lt (by omega)]
    rfl
  · rw [if_neg (by omega), if_pos (by omega), edge]
    obtain rfl : magnitude = 2 ^ 52 - 1 := by omega
    rfl
  · rw [if_neg (by omega), if_neg (by omega)]
    have positive : 0 < magnitude / 2 ^ 52 := by omega
    by_cases last : magnitude % 2 ^ 52 = 2 ^ 52 - 1
    · have carry : (magnitude + 1) / 2 ^ 52 - 1 = magnitude / 2 ^ 52 - 1 + 1 := by omega
      have reset : (magnitude + 1) % 2 ^ 52 = 0 := by omega
      rw [carry, reset, last, Nat.pow_succ]
      ring
    · have same : (magnitude + 1) / 2 ^ 52 = magnitude / 2 ^ 52 := by omega
      have next : (magnitude + 1) % 2 ^ 52 = magnitude % 2 ^ 52 + 1 := by omega
      rw [same, next]
      ring

theorem unitsAt_strictMono : StrictMono unitsAt := by
  apply strictMono_nat_of_lt_succ
  intro magnitude
  rw [unitsAt_succ]
  exact Nat.lt_add_of_pos_right (Nat.two_pow_pos _)

/-! The encoding. -/

/-- Finite and without a sign. -/
structure Plain (x : Binary64) : Prop where
  finite : x.isFinite = true
  positive : x.isNegative = false

def sign (x : Binary64) : Sign := if x.isNegative then .negative else .positive

section Fields

variable (b : BitVec Format.binary64.numBits)

theorem toNat_unpackExponent :
    (UnpackedFloat.unpackExponent b).toNat = b.toNat / 2 ^ 52 % 2 ^ 11 := by
  simp [UnpackedFloat.unpackExponent, Nat.shiftRight_eq_div_pow]

theorem toNat_unpackMantissa : (UnpackedFloat.unpackMantissa b).toNat = b.toNat % 2 ^ 52 := by
  simp [UnpackedFloat.unpackMantissa]

theorem toNat_unpackSign : (UnpackedFloat.unpackSign b).toNat = b.toNat / 2 ^ 63 % 2 := by
  simp [UnpackedFloat.unpackSign, Nat.shiftRight_eq_div_pow]

theorem toNat_packComponents (sign : Sign) (exponent : BitVec 11) (mantissa : BitVec 52) :
    (UnpackedFloat.packComponents Format.binary64 sign exponent mantissa).toNat =
      sign.toBitVec.toNat * 2 ^ 63 + (exponent.toNat * 2 ^ 52 + mantissa.toNat) := by
  unfold UnpackedFloat.packComponents
  have low : mantissa.toNat < 2 ^ 52 := mantissa.isLt
  have middle : exponent.toNat < 2 ^ 11 := exponent.isLt
  rw [BitVec.toNat_append, BitVec.toNat_append]
  rw [← Nat.shiftLeft_add_eq_or_of_lt middle, ← Nat.shiftLeft_add_eq_or_of_lt low,
    Nat.shiftLeft_eq, Nat.shiftLeft_eq]
  ring

end Fields

/-- What the encoding stands for, by its sign, its significand and its exponent. -/
def unpacked (x : Binary64) : UnpackedFloat :=
  if x.isNaN then .notANumber
  else if !x.isFinite then .infinity x.sign
  else if nonzero : 0 < x.significand then .finite x.sign x.significand x.exponent nonzero
  else .zero x.sign

theorem infinity_magnitude : infinity.magnitude = 2047 * 2 ^ 52 := rfl

theorem exponent_field (x : Binary64) :
    (@UnpackedFloat.unpackExponent Format.binary64 x.bits.toBitVec).toNat =
      x.magnitude / 2 ^ 52 := by
  rw [toNat_unpackExponent, UInt64.toNat_toBitVec, magnitude]
  omega

theorem mantissa_field (x : Binary64) :
    (@UnpackedFloat.unpackMantissa Format.binary64 x.bits.toBitVec).toNat =
      x.magnitude % 2 ^ 52 := by
  rw [toNat_unpackMantissa, UInt64.toNat_toBitVec, magnitude]
  omega

theorem sign_field (x : Binary64) :
    Sign.ofBitVec (@UnpackedFloat.unpackSign Format.binary64 x.bits.toBitVec) =
      x.sign := by
  have bound := x.bits.toNat_lt
  have field := toNat_unpackSign x.bits.toBitVec
  rw [UInt64.toNat_toBitVec] at field
  simp only [Sign.ofBitVec, sign, ← BitVec.toNat_inj, field]
  by_cases negative : x.isNegative = true
  · have high := isNegative_iff.mp negative
    rw [if_pos negative, if_neg (by simp; omega)]
  · have low := mt isNegative_iff.mpr negative
    rw [if_neg negative, if_pos (by simp; omega)]

theorem isNaN_iff {x : Binary64} : x.isNaN = true ↔ 2047 * 2 ^ 52 < x.magnitude := by
  simp [isNaN, infinity_magnitude]

theorem isFinite_iff {x : Binary64} : x.isFinite = true ↔ x.magnitude < 2047 * 2 ^ 52 := by
  unfold isFinite
  exact decide_eq_true_iff

theorem magnitude_lt (x : Binary64) : x.magnitude < 2 ^ 63 := Nat.mod_lt _ (by decide)

theorem significand_of_small {x : Binary64} (small : x.magnitude < 2 ^ 52) :
    x.significand = x.magnitude ∧ x.exponent = -1074 :=
  ⟨if_pos small, if_pos small⟩

theorem significand_of_normal {x : Binary64} (normal : 2 ^ 52 ≤ x.magnitude) :
    x.significand = 2 ^ 52 + x.magnitude % 2 ^ 52 ∧
      x.exponent = (x.magnitude / 2 ^ 52 : Nat) - 1075 :=
  ⟨if_neg (Nat.not_lt_of_le normal), if_neg (Nat.not_lt_of_le normal)⟩

theorem finite_congr {s : Sign} {m m' : Nat} {e e' : Int} (mantissa : m = m') (exponent : e = e')
    {positive : 0 < m} {positive' : 0 < m'} :
    UnpackedFloat.finite s m e positive = .finite s m' e' positive' := by
  subst mantissa exponent
  rfl

theorem unpack_bits (x : Binary64) :
    UnpackedFloat.unpack Format.binary64 x.bits.toBitVec = x.unpacked := by
  have exponent_field := x.exponent_field
  have mantissa_field := x.mantissa_field
  have leading : ((1#1 ++ @UnpackedFloat.unpackMantissa Format.binary64
      x.bits.toBitVec).toNat) = 2 ^ 52 + x.magnitude % 2 ^ 52 := by
    rw [BitVec.toNat_append, ← Nat.shiftLeft_add_eq_or_of_lt (BitVec.isLt _), mantissa_field]
    rfl
  have bias : (Format.binary64.exponentBias : Int) + (52 : Nat) = 1075 := rfl
  have bound := x.magnitude_lt
  unfold UnpackedFloat.unpack unpacked
  simp only [x.sign_field, ← BitVec.toNat_inj, exponent_field, mantissa_field, leading, bias]
  rcases Nat.lt_or_ge x.magnitude (2047 * 2 ^ 52) with finite | large
  · have number : ¬ x.isNaN = true := fun nan => by have := isNaN_iff.mp nan; omega
    have bounded : ¬ (!x.isFinite) = true := by simp [isFinite_iff.mpr finite]
    rw [if_neg number, if_neg bounded, if_neg (by simp; omega)]
    rcases Nat.lt_or_ge x.magnitude (2 ^ 52) with small | normal
    · obtain ⟨significand, exponent⟩ := significand_of_small small
      rw [if_pos (by simp; omega)]
      by_cases zero : x.magnitude = 0
      · rw [dif_pos (by simp [zero]), dif_neg (by omega)]
      · rw [dif_neg (by simp; omega), dif_pos (by omega)]
        exact finite_congr (by omega) (by omega)
    · obtain ⟨significand, exponent⟩ := significand_of_normal normal
      rw [if_neg (by simp; omega), dif_pos (by omega)]
      exact finite_congr (by omega) (by omega)
  · have unbounded : (!x.isFinite) = true := by
      have := mt isFinite_iff.mp (Nat.not_lt_of_le large)
      simpa using this
    rw [if_pos (by simp; omega)]
    by_cases nan : 2047 * 2 ^ 52 < x.magnitude
    · rw [if_neg (by simp; omega), if_pos (isNaN_iff.mpr nan)]
    · rw [if_pos (by simp; omega), if_neg (mt isNaN_iff.mp nan), if_pos unbounded]

/-- Significands of fifty-three bits, and shorter ones with the least exponent. -/
def Canonical (significand : Nat) (exponent : Int) : Prop :=
  significand < 2 ^ 53 ∧ -1074 ≤ exponent ∧ (exponent = -1074 ∨ 2 ^ 52 ≤ significand)

theorem canonical (x : Binary64) : Canonical x.significand x.exponent := by
  unfold Canonical
  rcases Nat.lt_or_ge x.magnitude (2 ^ 52) with small | normal
  · obtain ⟨significand, exponent⟩ := significand_of_small small
    omega
  · obtain ⟨significand, exponent⟩ := significand_of_normal normal
    omega

theorem magnitude_eq (x : Binary64) :
    x.magnitude = (x.exponent + 1074).toNat * 2 ^ 52 + x.significand := by
  rcases Nat.lt_or_ge x.magnitude (2 ^ 52) with small | normal
  · obtain ⟨significand, exponent⟩ := significand_of_small small
    omega
  · obtain ⟨significand, exponent⟩ := significand_of_normal normal
    omega

theorem units_eq (x : Binary64) : x.units = unitsAt x.magnitude := by
  obtain ⟨short, least, normal⟩ := x.canonical
  rw [x.magnitude_eq, unitsAt_place short (by omega)]
  rfl

/-- One, in units of the least number. -/
def unitsInOne : Nat := 2 ^ 1074

theorem unitsInOne_pos : 0 < unitsInOne := by
  unfold unitsInOne
  positivity

theorem two_pow_add (shift : Nat) : 2 ^ (shift + 1074) = 2 ^ shift * unitsInOne := by
  unfold unitsInOne
  rw [← Nat.pow_add]

theorem one_units : one.units = unitsInOne := by
  have significand : one.significand = 2 ^ 52 := rfl
  have shift : (one.exponent + 1074).toNat = 1022 := rfl
  unfold units unitsInOne
  rw [significand, shift, show 1074 = 52 + 1022 from rfl, Nat.pow_add]

theorem units_eq_zero {x : Binary64} : x.units = 0 ↔ x.significand = 0 := by
  simp [units]

theorem toNat_packedInfinity (s : Sign) :
    (UnpackedFloat.packedInfinity Format.binary64 s).toNat =
      s.toBitVec.toNat * 2 ^ 63 + 2047 * 2 ^ 52 :=
  toNat_packComponents s (-1#11) 0

theorem toNat_packedZero (s : Sign) :
    (UnpackedFloat.packedZero Format.binary64 s).toNat = s.toBitVec.toNat * 2 ^ 63 :=
  (toNat_packComponents s 0 0).trans (by simp)

/-- Beyond the greatest finite number there is infinity. -/
theorem toNat_pack {s : Sign} {m : Nat} {e : Int} {positive : 0 < m} (canonical : Canonical m e) :
    (UnpackedFloat.pack Format.binary64 (.finite s m e positive)).toNat =
      s.toBitVec.toNat * 2 ^ 63 + min ((e + 1074).toNat * 2 ^ 52 + m) (2047 * 2 ^ 52) := by
  obtain ⟨short, least, normal⟩ := canonical
  have bias : (Format.binary64.exponentBias : Int) = 1023 := rfl
  simp only [UnpackedFloat.pack, bias]
  by_cases large : 2 ^ 11 ≤ (e + 1023 + (52 : Nat)).toNat + 1
  · rw [if_pos large, toNat_packedInfinity, Nat.min_eq_right (by omega)]
  rw [if_neg large]
  have bits : Format.binary64.mantissaBits = 53 := rfl
  rw [bits]
  by_cases long : m.log2 + 1 = 53
  · have least_normal : 2 ^ 52 ≤ m := by
      have := Nat.log2_self_le (Nat.ne_of_gt positive)
      rwa [show m.log2 = 52 by omega] at this
    rw [if_pos long, toNat_packComponents, BitVec.toNat_ofNat, BitVec.toNat_ofNat]
    omega
  · have subnormal : m < 2 ^ 52 := by
      apply (Nat.log2_lt (Nat.ne_of_gt positive)).mp
      have := (Nat.log2_lt (Nat.ne_of_gt positive)).mpr short
      omega
    rw [if_neg long, toNat_packComponents, BitVec.toNat_ofNat, BitVec.toNat_ofNat]
    omega

theorem pack_unpacked {x : Binary64} (number : x.isNaN = false) :
    UnpackedFloat.pack Format.binary64 x.unpacked = x.bits.toBitVec := by
  rw [← unpack_bits, UnpackedFloat.pack_unpack, if_neg]
  intro nan
  simp only [UnpackedFloat.isNaNBits, decide_eq_true_eq, ne_eq, ← BitVec.toNat_inj, exponent_field,
    mantissa_field] at nan
  obtain ⟨full, nonzero⟩ := nan
  change x.magnitude / 2 ^ 52 = 2047 at full
  change ¬ x.magnitude % 2 ^ 52 = 0 at nonzero
  have beyond : x.isNaN = true := isNaN_iff.mpr (by omega)
  rw [number] at beyond
  cases beyond

theorem number_of_finite {x : Binary64} (finite : x.isFinite = true) : x.isNaN = false := by
  have small := isFinite_iff.mp finite
  apply Bool.eq_false_of_not_eq_true
  intro nan
  have large := isNaN_iff.mp nan
  omega

theorem unpacked_of_finite {x : Binary64} (finite : x.isFinite = true) :
    x.unpacked = if nonzero : 0 < x.significand then
      .finite x.sign x.significand x.exponent nonzero else .zero x.sign := by
  unfold unpacked
  rw [if_neg (by simp [number_of_finite finite]), if_neg (by simp [finite])]

theorem sign_of_negative {x : Binary64} (negative : x.isNegative = true) : x.sign = .negative := by
  simp [sign, negative]

namespace Plain

variable {x y : Binary64}

theorem sign_eq (plain : x.Plain) : x.sign = .positive := by
  simp [sign, plain.positive]

theorem bits_eq (plain : x.Plain) : x.bits.toNat = x.magnitude := by
  have whole := x.bits_eq
  rwa [plain.positive] at whole

theorem lt_infinity (plain : x.Plain) : x.bits.toNat < 2047 * 2 ^ 52 := by
  rw [plain.bits_eq]
  exact isFinite_iff.mp plain.finite

end Plain

/-- An encoding up to that of infinity has no sign and is no NaN. -/
theorem ordered_of_bits {x : Binary64} (ordered : x.bits.toNat ≤ 2047 * 2 ^ 52) :
    x.isNaN = false ∧ x.isNegative = false ∧ x.magnitude = x.bits.toNat := by
  have whole := x.bits_eq
  have positive : x.isNegative = false := by
    apply Bool.eq_false_of_not_eq_true
    intro negative
    have large := isNegative_iff.mp negative
    omega
  rw [positive] at whole
  have number : x.isNaN = false := by
    apply Bool.eq_false_of_not_eq_true
    intro nan
    have large := isNaN_iff.mp nan
    omega
  exact ⟨number, positive, whole.symm⟩

theorem plain_of_bits {x : Binary64} (small : x.bits.toNat < 2047 * 2 ^ 52) : x.Plain := by
  obtain ⟨-, positive, magnitude⟩ := ordered_of_bits (Nat.le_of_lt small)
  exact ⟨isFinite_iff.mpr (magnitude ▸ small), positive⟩

/-- The encoding is forgotten in a float only where it is that of a NaN. -/
theorem unpack_toFloat (x : Binary64) : x.toFloat.toModel.unpack = x.unpacked := by
  change UnpackedFloat.unpack Format.binary64
    (UnpackedFloat.pack Format.binary64 (UnpackedFloat.unpack Format.binary64 x.bits.toBitVec)) = _
  rw [unpack_bits]
  cases nan : x.isNaN with
  | false => rw [pack_unpacked nan, unpack_bits]
  | true =>
    have nothing : x.unpacked = .notANumber := if_pos nan
    rw [nothing]
    rfl

end HedgedStore.Binary64

import HedgedStore.Proofs.Number.Rounding

/-! Shares of a count. A number between zero and one times a count, rounded up, is a place among the
things counted: a greater share has no lower place, nothing has the place zero, and all of a count
that is a number itself has its last place. -/
namespace HedgedStore.Binary64

open Float.Model (UnpackedFloat Format)

variable {x y : Binary64}

/-! Products. -/

theorem mul_packed (x y : Binary64) : (x.mul y).bits.toNat = (UnpackedFloat.pack Format.binary64
    (UnpackedFloat.mul Format.binary64 x.unpacked y.unpacked)).toNat := by
  rw [← unpack_toFloat, ← unpack_toFloat]
  rfl

theorem scaled_mul (x y : Binary64) :
    scaled (x.significand * y.significand) (x.exponent + y.exponent) = x.units * y.units := by
  obtain ⟨-, least_x, -⟩ := x.canonical
  obtain ⟨-, least_y, -⟩ := y.canonical
  have shift : (x.exponent + y.exponent + 2148).toNat =
      (x.exponent + 1074).toNat + (y.exponent + 1074).toNat := by omega
  unfold scaled units
  rw [shift, Nat.pow_add, Nat.mul_mul_mul_comm]

/-- A product has bits enough to be rounded, or an exponent low enough. -/
theorem mul_long (first : 0 < x.significand) (second : 0 < y.significand) :
    52 ≤ (x.significand * y.significand).log2 ∨ x.exponent + y.exponent ≤ -1074 := by
  obtain ⟨-, least_x, normal_x⟩ := x.canonical
  obtain ⟨-, least_y, normal_y⟩ := y.canonical
  rw [Nat.le_log2 (Nat.ne_of_gt (Nat.mul_pos first second))]
  rcases normal_x with small | normal
  · rcases normal_y with small' | normal
    · right
      omega
    · exact .inl (normal.trans (Nat.le_mul_of_pos_left _ first))
  · exact .inl (normal.trans (Nat.le_mul_of_pos_right _ second))

/-- A product is exact before it is rounded, once. -/
theorem mul_bits (first : x.Plain) (second : y.Plain) :
    (x.mul y).bits.toNat = min (rounded (x.units * y.units)) (2047 * 2 ^ 52) := by
  rw [mul_packed, unpacked_of_finite first.finite, unpacked_of_finite second.finite, first.sign_eq,
    second.sign_eq]
  by_cases nonzero_x : 0 < x.significand
  · by_cases nonzero_y : 0 < y.significand
    · obtain ⟨-, least_x, -⟩ := x.canonical
      obtain ⟨-, least_y, -⟩ := y.canonical
      rw [dif_pos nonzero_x, dif_pos nonzero_y, ← scaled_mul, ← Nat.zero_add (min _ _)]
      exact pack_round (Nat.mul_pos nonzero_x nonzero_y) (by omega) (mul_long nonzero_x nonzero_y)
    · have nothing : y.units = 0 := units_eq_zero.mpr (by omega)
      rw [dif_pos nonzero_x, dif_neg nonzero_y, nothing, Nat.mul_zero, rounded_zero]
      exact toNat_packedZero .positive
  · have nothing : x.units = 0 := units_eq_zero.mpr (by omega)
    rw [dif_neg nonzero_x, nothing, Nat.zero_mul, rounded_zero]
    split
    · exact toNat_packedZero .positive
    · exact toNat_packedZero .positive

theorem one_mul (plain : x.Plain) : one.mul x = x := by
  obtain ⟨short, least, normal⟩ := x.canonical
  have place : rounded (one.units * x.units) = x.bits.toNat := by
    rw [one_units, Nat.mul_comm, plain.bits_eq, x.magnitude_eq]
    exact rounded_place short (by omega)
  have product : (one.mul x).bits = x.bits := by
    apply UInt64.toNat_inj.mp
    rw [mul_bits ⟨rfl, rfl⟩ plain, place, Nat.min_eq_left (Nat.le_of_lt plain.lt_infinity)]
  exact congrArg mk product

/-! Counts. -/

theorem scaled_natural (n : Nat) : scaled n 0 = n * unitsInOne * unitsInOne := by
  have total : 2 ^ (0 + 2148 : Int).toNat = unitsInOne * unitsInOne := by
    unfold unitsInOne
    rw [← Nat.pow_add]
    congr 1
  rw [scaled, total, Nat.mul_assoc]

/-- A natural number is made long enough first, and then rounded. -/
theorem ofUInt64_bits (n : UInt64) :
    (ofUInt64 n).bits.toNat = min (rounded (scaled n.toNat 0)) (2047 * 2 ^ 52) := by
  have packed : (ofUInt64 n).bits.toNat = (UnpackedFloat.pack Format.binary64
      (UnpackedFloat.normalize Format.binary64 (n.toNat : Int) 0 .positive)).toNat := rfl
  rw [packed]
  generalize n.toNat = n
  unfold UnpackedFloat.normalize
  rcases Nat.eq_zero_or_pos n with rfl | positive
  · rw [scaled_natural, Nat.zero_mul, Nat.zero_mul, rounded_zero]
    exact toNat_packedZero .positive
  · have greater : compare (n : Int) 0 = .gt := Int.compare_eq_gt.mpr (by omega)
    rw [greater]
    dsimp only
    unfold UnpackedFloat.round UnpackedFloat.decreaseExponent
    rw [targetExponent_eq, Int.toNat_natCast]
    dsimp only
    rw [Nat.shiftLeft_eq]
    obtain ⟨shift, missing, few⟩ : ∃ shift : Nat,
        (0 - max ((n.log2 : Int) + 0 - 52) (-1074)).toNat = shift ∧ 52 ≤ n.log2 + shift :=
      ⟨_, rfl, by omega⟩
    have long : 52 ≤ (n * 2 ^ shift).log2 := by rwa [log2_mul_two_pow positive]
    have same : scaled (n * 2 ^ shift) (0 - shift) = scaled n 0 := by
      have total : shift + (0 - (shift : Int) + 2148).toNat = (0 + 2148 : Int).toNat := by omega
      unfold scaled
      rw [Nat.mul_assoc, ← Nat.pow_add, total]
    rw [missing, ← same, ← Nat.zero_add (min _ _)]
    exact pack_round (Nat.mul_pos positive (Nat.two_pow_pos shift)) (by omega) (.inl long)

/-- A number of sixty-four bits is far from infinity. -/
theorem rounded_natural_lt (n : UInt64) : rounded (scaled n.toNat 0) < 2047 * 2 ^ 52 := by
  have bound := n.toNat_lt
  have limited : excess (scaled n.toNat 0) ≤ 1085 := by
    unfold excess scaled
    rcases Nat.eq_zero_or_pos n.toNat with zero | positive
    · rw [zero, Nat.zero_mul, Nat.log2_zero]
      omega
    · have bits := (Nat.log2_lt (Nat.ne_of_gt positive)).mpr bound
      rw [log2_mul_two_pow positive]
      omega
  have fraction : nearest (scaled n.toNat 0) (excess (scaled n.toNat 0) + 1074) ≤ 2 ^ 53 :=
    nearest_le (lt_of_excess _)
  unfold rounded
  omega

theorem ofUInt64_eq (n : UInt64) : (ofUInt64 n).bits.toNat = rounded (scaled n.toNat 0) := by
  rw [ofUInt64_bits, Nat.min_eq_left (Nat.le_of_lt (rounded_natural_lt n))]

theorem ofUInt64_plain (n : UInt64) : (ofUInt64 n).Plain := by
  apply plain_of_bits
  rw [ofUInt64_eq]
  exact rounded_natural_lt n

theorem exists_place {n : Nat} (small : n ≤ 2 ^ 53) : ∃ m shift, m < 2 ^ 53 ∧
    (shift = 0 ∨ 2 ^ 52 ≤ m) ∧ n * unitsInOne = m * 2 ^ shift := by
  rcases Nat.eq_zero_or_pos n with rfl | positive
  · exact ⟨0, 0, by decide, .inl rfl, by rw [Nat.zero_mul, Nat.zero_mul]⟩
  rcases Nat.eq_or_lt_of_le small with rfl | below
  · have double : 2 ^ 52 * 2 ^ 1 = 2 ^ 53 := rfl
    refine ⟨2 ^ 52, 1 + 1074, by decide, .inr (Nat.le_refl _), ?_⟩
    rw [two_pow_add, ← Nat.mul_assoc, double]
  · have bits := (Nat.log2_lt (Nat.ne_of_gt positive)).mpr below
    have long := log2_mul_two_pow positive (52 - n.log2)
    have nonzero : n * 2 ^ (52 - n.log2) ≠ 0 :=
      Nat.ne_of_gt (Nat.mul_pos positive (Nat.two_pow_pos _))
    refine ⟨n * 2 ^ (52 - n.log2), n.log2 + 1022, ?_, .inr ?_, ?_⟩
    · exact (Nat.log2_lt nonzero).mp (by omega)
    · exact (Nat.le_log2 nonzero).mp (by omega)
    · have total : 52 - n.log2 + (n.log2 + 1022) = 1074 := by omega
      unfold unitsInOne
      rw [← total, Nat.mul_assoc, ← Nat.pow_add]

/-- A count up to this bound is a number itself. -/
theorem units_ofUInt64 {n : UInt64} (small : n.toNat ≤ 2 ^ 53) :
    (ofUInt64 n).units = n.toNat * unitsInOne := by
  obtain ⟨m, shift, short, normal, same⟩ := exists_place small
  rw [units_eq, ← (ofUInt64_plain n).bits_eq, ofUInt64_eq, scaled_natural, same,
    rounded_place short normal, unitsAt_place short normal]

/-! The least natural number above a number. -/

theorem ceilNat_le (x : Binary64) : x.ceilNat ≤ 0xFFFFFFFFFFFFFFFF := by
  unfold ceilNat
  split
  · exact Nat.zero_le _
  · split
    · exact Nat.le_refl _
    · exact Nat.min_le_right _ _

theorem ceilNat_le_iff (plain : x.Plain) {n : Nat} (below : n < 0xFFFFFFFFFFFFFFFF) :
    x.ceilNat ≤ n ↔ x.units ≤ n * unitsInOne := by
  obtain ⟨-, least, -⟩ := x.canonical
  unfold ceilNat units
  rw [if_neg (by simp [number_of_finite plain.finite, plain.positive]),
    if_neg (by simp [plain.finite])]
  dsimp only
  rw [min_le_iff, or_iff_left (Nat.not_le_of_lt below)]
  split
  · rename_i whole
    have shift : 2 ^ (x.exponent + 1074).toNat = 2 ^ x.exponent.toNat * unitsInOne := by
      rw [← two_pow_add]
      congr 1
      omega
    rw [shift, ← Nat.mul_assoc]
    exact (Nat.mul_le_mul_right_iff unitsInOne_pos).symm
  · rename_i fraction
    have shift : unitsInOne = 2 ^ (-x.exponent).toNat * 2 ^ (x.exponent + 1074).toNat := by
      rw [unitsInOne, ← Nat.pow_add]
      congr 1
      omega
    rw [shift, ← Nat.mul_assoc, Nat.mul_le_mul_right_iff (Nat.two_pow_pos _)]
    change (_ + (2 ^ _ - 1)) / 2 ^ _ ≤ n ↔ _
    rw [Nat.div_le_iff_le_mul_add_pred (Nat.two_pow_pos _), Nat.mul_comm n]
    exact Nat.add_le_add_iff_right

theorem ceilNat_mono (number : y.isNaN = false) (positive : y.isNegative = false)
    (le : x.atMost y = true) : x.ceilNat ≤ y.ceilNat := by
  by_cases nothing : (x.isNaN || x.isNegative) = true
  · have zero : x.ceilNat = 0 := if_pos nothing
    rw [zero]
    exact Nat.zero_le _
  obtain ⟨number_x, positive_x⟩ : x.isNaN = false ∧ x.isNegative = false := by simpa using nothing
  have order := (atMost_iff_of_positive positive_x positive).mp le
  by_cases finite : y.isFinite = true
  · by_cases limited : y.ceilNat < 0xFFFFFFFFFFFFFFFF
    · have plain : x.Plain := ⟨isFinite_iff.mpr (order.trans_lt (isFinite_iff.mp finite)), positive_x⟩
      have reached := (ceilNat_le_iff ⟨finite, positive⟩ limited).mp (Nat.le_refl _)
      apply (ceilNat_le_iff plain limited).mpr
      rw [units_eq] at reached ⊢
      exact (unitsAt_strictMono.monotone order).trans reached
    · exact x.ceilNat_le.trans (Nat.le_of_not_lt limited)
  · have greatest : y.ceilNat = 0xFFFFFFFFFFFFFFFF := by
      unfold ceilNat
      rw [if_neg (by simp [number, positive]), if_pos (by simpa using finite)]
    rw [greatest]
    exact x.ceilNat_le

/-! Shares of a count. -/

theorem float_le_iff {a b : Float} : a ≤ b ↔ a.toModel.unpack.le b.toModel.unpack = true :=
  decide_eq_true_iff

/-- A share is finite, and if it has a sign it is a zero. -/
theorem regular_of_inUnitInterval (within : x.inUnitInterval = true) :
    x.isFinite = true ∧ (x.isNegative = true → x.significand = 0) := by
  unfold inUnitInterval at within
  rw [Bool.and_eq_true, Bool.and_eq_true, decide_eq_true_iff, decide_eq_true_iff] at within
  obtain ⟨⟨number, above⟩, below⟩ := within
  have from_zero : zero.unpacked.le x.unpacked = true := by
    rw [← unpack_toFloat, ← unpack_toFloat]
    exact float_le_iff.mp above
  have to_one : x.unpacked.le one.unpacked = true := by
    rw [← unpack_toFloat, ← unpack_toFloat]
    exact float_le_iff.mp below
  have finite : x.isFinite = true := by
    by_contra infinite
    have boundless : x.unpacked = .infinity x.sign := by
      unfold unpacked
      rw [if_neg (by simpa using number), if_pos (by simpa using infinite)]
    rw [boundless] at from_zero to_one
    cases signed : x.sign with
    | negative =>
      rw [signed] at from_zero
      exact absurd from_zero (by decide)
    | positive =>
      rw [signed] at to_one
      exact absurd to_one (by decide)
  refine ⟨finite, fun negative => ?_⟩
  by_contra nonzero
  rw [unpacked_of_finite finite, dif_pos (Nat.pos_of_ne_zero nonzero), sign_of_negative negative]
    at from_zero
  cases from_zero

/-- The place of a share of a count, from one on. -/
def placeOf (share : Binary64) (count : Nat) : Nat := (share.mul (.ofUInt64 count.toUInt64)).ceilNat

theorem placeOf_zero (finite : x.isFinite = true) (nothing : x.significand = 0) (count : Nat) :
    x.placeOf count = 0 := by
  have counted := ofUInt64_plain count.toUInt64
  unfold placeOf
  cases signed : x.isNegative with
  | false =>
    have bits := mul_bits ⟨finite, signed⟩ counted
    rw [units_eq_zero.mpr nothing, Nat.zero_mul, rounded_zero, Nat.zero_min] at bits
    have plain : (x.mul (.ofUInt64 count.toUInt64)).Plain := plain_of_bits (bits.trans_lt (by decide))
    have least : (x.mul (.ofUInt64 count.toUInt64)).units = 0 := by
      rw [units_eq, ← plain.bits_eq, bits]
      rfl
    apply Nat.le_zero.mp
    rw [ceilNat_le_iff plain (by decide), least]
    exact Nat.zero_le _
  | true =>
    have product : (x.mul (.ofUInt64 count.toUInt64)).isNegative = true := by
      rw [isNegative_iff, mul_packed, unpacked_of_finite finite, dif_neg (by omega),
        sign_of_negative signed, unpacked_of_finite counted.finite, counted.sign_eq]
      split
      · exact (toNat_packedZero .negative).ge
      · exact (toNat_packedZero .negative).ge
    exact if_pos (by simp [product])

theorem placeOf_mono (first : x.inUnitInterval = true) (second : y.inUnitInterval = true)
    (le : x.atMost y = true) (count : Nat) : x.placeOf count ≤ y.placeOf count := by
  obtain ⟨finite_x, signed_x⟩ := regular_of_inUnitInterval first
  obtain ⟨finite_y, signed_y⟩ := regular_of_inUnitInterval second
  by_cases signed : x.isNegative = true
  · rw [placeOf_zero finite_x (signed_x signed)]
    exact Nat.zero_le _
  have positive_x : x.isNegative = false := Bool.eq_false_of_not_eq_true signed
  have positive_y : y.isNegative = false := by
    apply Bool.eq_false_of_not_eq_true
    intro negative
    have ranks := atMost_iff.mp le
    simp only [rank, positive_x, negative, if_true, Bool.false_eq_true, if_false] at ranks
    omega
  have order := (atMost_iff_of_positive positive_x positive_y).mp le
  have bits_x := mul_bits ⟨finite_x, positive_x⟩ (ofUInt64_plain count.toUInt64)
  have bits_y := mul_bits ⟨finite_y, positive_y⟩ (ofUInt64_plain count.toUInt64)
  have products : x.units * (ofUInt64 count.toUInt64).units ≤
      y.units * (ofUInt64 count.toUInt64).units := by
    rw [units_eq x, units_eq y]
    exact Nat.mul_le_mul_right _ (unitsAt_strictMono.monotone order)
  obtain ⟨-, positive, magnitude⟩ := ordered_of_bits (bits_x.trans_le (Nat.min_le_right _ _))
  obtain ⟨number', positive', magnitude'⟩ :=
    ordered_of_bits (bits_y.trans_le (Nat.min_le_right _ _))
  apply ceilNat_mono number' positive'
  rw [atMost_iff_of_positive positive positive', magnitude, magnitude', bits_x, bits_y]
  exact min_le_min_right _ (rounded_mono products)

/-- All of a count is the count, where it is a number itself. -/
theorem placeOf_one {count : Nat} (small : count ≤ 2 ^ 53) : one.placeOf count = count := by
  have plain := ofUInt64_plain count.toUInt64
  have same : count.toUInt64.toNat = count := Nat.mod_eq_of_lt (by omega)
  have units : (ofUInt64 count.toUInt64).units = count * unitsInOne := by
    rw [units_ofUInt64 (by omega), same]
  have reaches {n : Nat} (below : n < 0xFFFFFFFFFFFFFFFF) :
      (ofUInt64 count.toUInt64).ceilNat ≤ n ↔ count ≤ n := by
    rw [ceilNat_le_iff plain below, units]
    exact Nat.mul_le_mul_right_iff unitsInOne_pos
  have most := (reaches (n := count) (by omega)).mpr (Nat.le_refl _)
  unfold placeOf
  rw [one_mul plain]
  exact Nat.le_antisymm most ((reaches (by omega)).mp (Nat.le_refl _))

end HedgedStore.Binary64

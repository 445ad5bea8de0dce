import HedgedStore.Proofs.Number.Units

/-! Rounding to binary64 numbers. An exact result in small enough units goes to the place of the
nearest number, and a greater result never goes to a lower place. -/
namespace HedgedStore.Binary64

open Float.Model (UnpackedFloat Format totalExponent)
open Float.Model.UnpackedFloat (Sign ExtendedMantissa)

/-- A quotient by a power of two above one, rounded to the nearest number, or to the even one if it
lies midway between two. -/
def nearest (n shift : Nat) : Nat := (n + n / 2 ^ shift % 2 + (2 ^ (shift - 1) - 1)) / 2 ^ shift

theorem nearest_mono {n m : Nat} (le : n ≤ m) (shift : Nat) : nearest n shift ≤ nearest m shift := by
  apply Nat.div_le_div_right
  rcases Nat.eq_or_lt_of_le le with rfl | less
  · exact Nat.le_refl _
  · have parity := Nat.mod_lt (n / 2 ^ shift) (show 0 < 2 by decide)
    omega

theorem nearest_mul (q shift : Nat) : nearest (q * 2 ^ (shift + 1)) (shift + 1) = q := by
  have positive := Nat.two_pow_pos shift
  unfold nearest
  rw [Nat.mul_div_cancel _ (Nat.two_pow_pos _), Nat.add_sub_cancel, Nat.add_assoc, Nat.mul_comm,
    Nat.mul_add_div (Nat.two_pow_pos _), Nat.div_eq_of_lt, Nat.add_zero]
  rw [Nat.pow_succ]
  omega

theorem repeat_add {α : Type} (f : α → α) (n m : Nat) (a : α) :
    (n + m).repeat f a = m.repeat f (n.repeat f a) := by
  induction m with
  | zero => rfl
  | succ m ih =>
    rw [← Nat.add_assoc]
    exact congrArg f ih

theorem shiftRight_add (em : ExtendedMantissa) (n m : Nat) : em >>> (n + m) = em >>> n >>> m :=
  repeat_add ExtendedMantissa.shiftRightOne n m em

theorem shiftRight_succ (em : ExtendedMantissa) (n : Nat) :
    em >>> (n + 1) = (em >>> n).shiftRightOne := rfl

/-- The last bit shifted out is the round bit, and the sticky bit tells of all before it. -/
theorem shiftRight_eq (m n : Nat) : (⟨m, false, false⟩ : ExtendedMantissa) >>> (n + 1) =
    ⟨m / 2 ^ (n + 1), m / 2 ^ n % 2 != 0, m % 2 ^ n != 0⟩ := by
  induction n with
  | zero =>
    have lone : m % 2 ^ 0 = 0 := Nat.mod_one m
    rw [lone, pow_zero, Nat.div_one]
    rfl
  | succ n ih =>
    rw [shiftRight_succ, ih]
    unfold ExtendedMantissa.shiftRightOne
    have sticky : ((m / 2 ^ n % 2 != 0) || (m % 2 ^ n != 0)) = (m % 2 ^ (n + 1) != 0) := by
      have positive := Nat.two_pow_pos n
      rw [Nat.mod_pow_succ, Bool.eq_iff_iff]
      simp only [Bool.or_eq_true, bne_iff_ne, ne_eq, Nat.add_eq_zero_iff, Nat.mul_eq_zero]
      omega
    simp only [sticky, Nat.div_div_eq_div_mul, ← Nat.pow_succ]

theorem shiftRight_mul (m n : Nat) :
    (⟨m * 2 ^ n, false, false⟩ : ExtendedMantissa) >>> n = ⟨m, false, false⟩ := by
  cases n with
  | zero =>
    rw [pow_zero, Nat.mul_one]
    rfl
  | succ n =>
    have whole : m * 2 ^ (n + 1) / 2 ^ n = 2 * m := by
      rw [Nat.pow_succ, Nat.mul_comm (2 ^ n), ← Nat.mul_assoc,
        Nat.mul_div_cancel _ (Nat.two_pow_pos n), Nat.mul_comm]
    have nothing : m * 2 ^ (n + 1) % 2 ^ n = 0 :=
      Nat.mod_eq_zero_of_dvd ((Nat.pow_dvd_pow 2 (Nat.le_succ n)).trans (Nat.dvd_mul_left _ m))
    rw [shiftRight_eq, Nat.mul_div_cancel _ (Nat.two_pow_pos _), whole, nothing,
      Nat.mul_mod_right]
    rfl

theorem div_eq_of_between {n d k : Nat} (low : k * d ≤ n) (high : n < k * d + d) : n / d = k :=
  Nat.div_eq_of_lt_le low (by rwa [Nat.succ_mul])

theorem roundedMantissa_shiftRight (m n : Nat) :
    ((⟨m, false, false⟩ : ExtendedMantissa) >>> (n + 1)).roundedMantissa = nearest m (n + 1) := by
  have positive := Nat.two_pow_pos n
  have low := Nat.mod_lt m positive
  have halves : m / 2 ^ n = 2 * (m / 2 ^ (n + 1)) + m / 2 ^ n % 2 := by
    rw [Nat.pow_succ, ← Nat.div_div_eq_div_mul]
    exact (Nat.div_add_mod _ 2).symm
  have whole : m = m / 2 ^ (n + 1) * 2 ^ (n + 1) + (m / 2 ^ n % 2 * 2 ^ n + m % 2 ^ n) := by
    rw [← Nat.add_assoc, Nat.pow_succ 2 n, Nat.mul_comm (2 ^ n) 2, ← Nat.mul_assoc, ← Nat.add_mul,
      Nat.mul_comm (m / _) 2, Nat.mul_comm 2 (2 ^ n), ← Nat.pow_succ, ← halves, Nat.div_add_mod']
  rw [shiftRight_eq]
  unfold nearest
  rw [Nat.add_sub_cancel]
  have parity := Nat.mod_lt (m / 2 ^ (n + 1)) (show 0 < 2 by decide)
  have bit := Nat.mod_lt (m / 2 ^ n) (show 0 < 2 by decide)
  have double := Nat.pow_succ 2 n
  generalize m / 2 ^ (n + 1) = q, m / 2 ^ n % 2 = b, m % 2 ^ n = r at *
  symm
  rcases (show b = 0 ∨ b = 1 by omega) with rfl | rfl <;>
    rcases Nat.eq_zero_or_pos r with rfl | tail
  · exact div_eq_of_between (k := q) (by omega) (by omega)
  · have sticky : (r != 0) = true := bne_iff_ne.mpr (Nat.ne_of_gt tail)
    rw [sticky]
    exact div_eq_of_between (k := q) (by omega) (by omega)
  · -- a tie goes to the even one of the two
    change _ = q + q % 2
    rcases (show q % 2 = 0 ∨ q % 2 = 1 by omega) with even | odd
    · rw [even]
      exact div_eq_of_between (k := q) (by omega) (by omega)
    · rw [odd]
      exact div_eq_of_between (k := q + 1) (by rw [Nat.succ_mul]; omega)
        (by rw [Nat.succ_mul]; omega)
  · have sticky : (r != 0) = true := bne_iff_ne.mpr (Nat.ne_of_gt tail)
    rw [sticky]
    exact div_eq_of_between (k := q + 1) (by rw [Nat.succ_mul]; omega) (by rw [Nat.succ_mul]; omega)

theorem nearest_le {n bits shift : Nat} (small : n < 2 ^ (bits + (shift + 1))) :
    nearest n (shift + 1) ≤ 2 ^ bits := by
  rw [← nearest_mul (2 ^ bits) shift, ← Nat.pow_add]
  exact nearest_mono (Nat.le_of_lt small) (shift + 1)

theorem le_nearest {n bits shift : Nat} (large : 2 ^ (bits + (shift + 1)) ≤ n) :
    2 ^ bits ≤ nearest n (shift + 1) := by
  rw [← nearest_mul (2 ^ bits) shift, ← Nat.pow_add]
  exact nearest_mono large (shift + 1)

/-- By how many bits a number of the units squared is too long for its place to be the least
exponent. -/
def excess (n : Nat) : Nat := n.log2 - 1126

/-- The place of the number nearest to so many of the units squared. -/
def rounded (n : Nat) : Nat := excess n * 2 ^ 52 + nearest n (excess n + 1074)

theorem lt_of_excess (n : Nat) : n < 2 ^ (53 + (excess n + 1073 + 1)) := by
  apply Nat.lt_of_lt_of_le Nat.lt_log2_self
  apply Nat.pow_le_pow_right (by decide)
  unfold excess
  omega

theorem le_of_excess {n : Nat} (long : 0 < excess n) : 2 ^ (52 + (excess n + 1073 + 1)) ≤ n := by
  unfold excess at long ⊢
  have nonzero : n ≠ 0 := by
    rintro rfl
    simp at long
  rw [show 52 + (n.log2 - 1126 + 1073 + 1) = n.log2 by omega]
  exact Nat.log2_self_le nonzero

theorem rounded_mono : Monotone rounded := by
  intro n m le
  have order : excess n ≤ excess m := by
    unfold excess
    rw [Nat.log2_eq_log_two, Nat.log2_eq_log_two]
    exact Nat.sub_le_sub_right (Nat.log_mono_right le) 1126
  unfold rounded
  rcases Nat.eq_or_lt_of_le order with same | less
  · rw [← same]
    exact Nat.add_le_add_left (nearest_mono le _) _
  · have below : nearest n (excess n + 1074) ≤ 2 ^ 53 := nearest_le (lt_of_excess n)
    have above : 2 ^ 52 ≤ nearest m (excess m + 1074) :=
      le_nearest (le_of_excess (Nat.zero_lt_of_lt less))
    omega

theorem rounded_zero : rounded 0 = 0 := by
  have nothing := nearest_mul 0 1073
  rw [Nat.zero_mul] at nothing
  unfold rounded excess
  rw [Nat.log2_zero, Nat.zero_sub, Nat.zero_mul, Nat.zero_add, Nat.zero_add, nothing]

/-! Rounding a number that is given by its significand and its exponent. -/

theorem targetExponent_eq (m : Nat) (e : Int) :
    Format.binary64.targetExponent (totalExponent m e) = max ((m.log2 : Int) + e - 52) (-1074) := by
  have bits : Format.binary64.mantissaBits = 53 := rfl
  have least : Format.binary64.minExponent = -1074 := rfl
  unfold Format.targetExponent totalExponent
  rw [bits, least]
  omega

theorem shiftToTargetExponent_eq {m : Nat} {e : Int} (shift : Nat)
    (target : Format.binary64.targetExponent (totalExponent m e) = e + shift) :
    UnpackedFloat.shiftToTargetExponent Format.binary64 m e .exact =
      ((⟨m, false, false⟩ : ExtendedMantissa) >>> shift, e + shift) := by
  unfold UnpackedFloat.shiftToTargetExponent UnpackedFloat.shiftToExponent
  rw [target]
  simp only [add_sub_cancel_left, Int.toNat_natCast]
  rfl

/-- The significand and the exponent before they are rounded, in the units squared. -/
def scaled (m : Nat) (e : Int) : Nat := m * 2 ^ (e + 2148).toNat

theorem log2_mul_two_pow {m : Nat} (positive : 0 < m) (shift : Nat) :
    (m * 2 ^ shift).log2 = m.log2 + shift := by
  have power := Nat.two_pow_pos shift
  have low := Nat.log2_self_le (Nat.ne_of_gt positive)
  have high := Nat.lt_log2_self (n := m)
  apply (Nat.log2_eq_iff (Nat.ne_of_gt (Nat.mul_pos positive power))).mpr
  rw [Nat.add_right_comm, Nat.pow_add, Nat.pow_add]
  exact ⟨Nat.mul_le_mul_right _ low, Nat.mul_lt_mul_of_pos_right high power⟩

/-- A significand that was rounded up to the next power of two is one bit shorter with the next
exponent. -/
theorem pack_carry {s : Sign} {r : Nat} {e : Int} (least : -1074 ≤ e) (short : r ≤ 2 ^ 53)
    (normal : e = -1074 ∨ 2 ^ 52 ≤ r) :
    (UnpackedFloat.pack Format.binary64
      (let final := UnpackedFloat.shiftToTargetExponent Format.binary64 r e .exact
        if nonzero : final.1.mantissa = 0 then .zero s
        else .finite s final.1.mantissa final.2 (Nat.pos_of_ne_zero nonzero))).toNat =
      s.toBitVec.toNat * 2 ^ 63 + min ((e + 1074).toNat * 2 ^ 52 + r) (2047 * 2 ^ 52) := by
  have target := targetExponent_eq r e
  rcases Nat.eq_or_lt_of_le short with rfl | shorter
  · rw [Nat.log2_two_pow] at target
    have carried : UnpackedFloat.shiftToTargetExponent Format.binary64 (2 ^ 53) e .exact =
        (⟨2 ^ 52, false, false⟩, e + 1) :=
      shiftToTargetExponent_eq 1 (target.trans (by omega))
    rw [carried]
    refine (toNat_pack ⟨by decide, by omega, .inr (Nat.le_refl _)⟩).trans ?_
    omega
  · have bits : r.log2 ≤ 52 := by
      rcases Nat.eq_zero_or_pos r with rfl | positive
      · decide
      · exact Nat.le_of_lt_succ ((Nat.log2_lt (Nat.ne_of_gt positive)).mpr shorter)
    have whole (large : 2 ^ 52 ≤ r) : 52 ≤ r.log2 := (Nat.le_log2 (by omega)).mpr large
    have kept : UnpackedFloat.shiftToTargetExponent Format.binary64 r e .exact =
        (⟨r, false, false⟩, e + (0 : Nat)) :=
      shiftToTargetExponent_eq 0 (target.trans (by omega))
    rw [kept]
    dsimp only
    split
    · rename_i zero
      refine (toNat_packedZero s).trans ?_
      omega
    · refine (toNat_pack ⟨shorter, by omega, ?_⟩).trans ?_
      · omega
      · omega

theorem pack_round {s : Sign} {m : Nat} {e : Int} (positive : 0 < m) (fine : -2148 ≤ e)
    (long : 52 ≤ m.log2 ∨ e ≤ -1074) :
    (UnpackedFloat.pack Format.binary64
      (UnpackedFloat.roundWithAccuracy Format.binary64 s m e .exact)).toNat =
      s.toBitVec.toNat * 2 ^ 63 + min (rounded (scaled m e)) (2047 * 2 ^ 52) := by
  have target := targetExponent_eq m e
  have excess_eq : (excess (scaled m e) : Int) = max ((m.log2 : Int) + e - 52) (-1074) + 1074 := by
    unfold excess scaled
    rw [log2_mul_two_pow positive]
    omega
  obtain ⟨shift, moved⟩ : ∃ shift : Nat, max ((m.log2 : Int) + e - 52) (-1074) = e + shift :=
    ⟨(max ((m.log2 : Int) + e - 52) (-1074) - e).toNat, by omega⟩
  have aligned : ((⟨m, false, false⟩ : ExtendedMantissa) >>> shift).roundedMantissa =
      nearest (scaled m e) (excess (scaled m e) + 1073 + 1) := by
    rw [← roundedMantissa_shiftRight, ← shiftRight_mul m (e + 2148).toNat, ← shiftRight_add]
    have total : excess (scaled m e) + 1073 + 1 = (e + 2148).toNat + shift := by omega
    rw [total]
    rfl
  unfold UnpackedFloat.roundWithAccuracy
  rw [shiftToTargetExponent_eq shift (target.trans moved)]
  dsimp only
  rw [aligned]
  refine (pack_carry (by omega) (nearest_le (lt_of_excess _)) ?_).trans ?_
  · rcases Nat.eq_zero_or_pos (excess (scaled m e)) with least | normal
    · left
      omega
    · right
      exact le_nearest (le_of_excess normal)
  · unfold rounded
    have place : (e + shift + 1074).toNat = excess (scaled m e) := by omega
    rw [place]

/-- A number that is represented already is its own place. -/
theorem rounded_place {shift m : Nat} (short : m < 2 ^ 53) (normal : shift = 0 ∨ 2 ^ 52 ≤ m) :
    rounded (m * 2 ^ shift * unitsInOne) = shift * 2 ^ 52 + m := by
  rcases Nat.eq_zero_or_pos m with rfl | positive
  · obtain rfl : shift = 0 := by omega
    rw [Nat.zero_mul, Nat.zero_mul, rounded_zero]
    rfl
  rw [Nat.mul_assoc, ← two_pow_add]
  have place : excess (m * 2 ^ (shift + 1074)) = shift := by
    have low := (Nat.log2_lt (Nat.ne_of_gt positive)).mpr short
    have high (large : 2 ^ 52 ≤ m) := (Nat.le_log2 (Nat.ne_of_gt positive)).mpr large
    unfold excess
    rw [log2_mul_two_pow positive]
    omega
  unfold rounded
  rw [place]
  exact congrArg _ (nearest_mul m (shift + 1073))

end HedgedStore.Binary64

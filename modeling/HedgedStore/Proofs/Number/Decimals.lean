import HedgedStore.Number.Decimal
import HedgedStore.Proofs.Number.Units
import Mathlib

/-! Numbers and their decimal text. A decimal that reads back as a number lies where numbers are
rounded to this one and to no other, and the text tells which decimal was written and with which
sign. So no two finite numbers have the same text. -/
namespace HedgedStore.Binary64

/-! Where numbers are rounded to. -/

/-- Halfway between a number and the next one above it, twice over, in units of the least number. -/
def halfway (magnitude : Nat) : Nat := unitsAt magnitude + unitsAt (magnitude + 1)

/-- A number lies between the halves around that at this place; on a half, if the place is even. -/
structure RoundsTo (v : ℚ) (magnitude : Nat) : Prop where
  below : 2 * v < halfway magnitude ∨ 2 * v = halfway magnitude ∧ magnitude % 2 = 0
  above : ∀ k, k + 1 = magnitude →
    halfway k < 2 * v ∨ 2 * v = halfway k ∧ magnitude % 2 = 0

variable {v : ℚ} {m n : Nat}

theorem unitsAt_lt_succ (magnitude : Nat) : unitsAt magnitude < unitsAt (magnitude + 1) :=
  unitsAt_strictMono (Nat.lt_succ_self magnitude)

theorem unitsAt_lt_halfway (magnitude : Nat) : 2 * unitsAt magnitude < halfway magnitude := by
  have above := unitsAt_lt_succ magnitude
  unfold halfway
  omega

theorem halfway_lt_unitsAt (magnitude : Nat) : halfway magnitude < 2 * unitsAt (magnitude + 1) := by
  have below := unitsAt_lt_succ magnitude
  unfold halfway
  omega

theorem halfway_strictMono : StrictMono halfway := by
  apply strictMono_nat_of_lt_succ
  intro magnitude
  exact (halfway_lt_unitsAt magnitude).trans (unitsAt_lt_halfway (magnitude + 1))

theorem RoundsTo.le (here : RoundsTo v m) (there : RoundsTo v n) : n ≤ m := by
  by_contra above
  obtain ⟨k, rfl⟩ : ∃ k, n = k + 1 := Nat.exists_eq_succ_of_ne_zero (by omega)
  have mono : (halfway m : ℚ) ≤ halfway k := by
    exact_mod_cast halfway_strictMono.monotone (show m ≤ k by omega)
  -- the halves can only meet where the two are neighbours, and of these one is odd
  rcases here.below with short | ⟨half, even⟩ <;>
    rcases there.above k rfl with long | ⟨half', even'⟩ <;> try linarith
  have meet : halfway m = halfway k := by
    exact_mod_cast half.symm.trans half'
  have neighbours := halfway_strictMono.injective meet
  omega

theorem RoundsTo.unique (here : RoundsTo v m) (there : RoundsTo v n) : m = n :=
  le_antisymm (there.le here) (here.le there)

theorem roundsTo_unitsAt (magnitude : Nat) : RoundsTo (unitsAt magnitude) magnitude := by
  constructor
  · left
    exact_mod_cast unitsAt_lt_halfway magnitude
  · rintro k rfl
    left
    exact_mod_cast halfway_lt_unitsAt k

/-! The decimals that read back. -/

/-- What a decimal stands for. -/
def Decimal.value (d : Decimal) : ℚ := d.digits * 10 ^ d.exponent

theorem zpow_toNat {base : ℚ} (nonzero : base ≠ 0) (i : Int) :
    base ^ i * base ^ (-i).toNat = base ^ i.toNat := by
  rw [← zpow_natCast, ← zpow_natCast, ← zpow_add₀ nonzero]
  congr 1
  omega

theorem compareScaled_eq (a : Nat) (i : Int) (b : Nat) (j : Int) :
    compareScaled a i b j = cmp ((a : ℚ) * 10 ^ i) (b * 2 ^ j) := by
  have scale : (0 : ℚ) < 10 ^ (-i).toNat * 2 ^ (-j).toNat := by positivity
  have left : a * 10 ^ i * (10 ^ (-i).toNat * 2 ^ (-j).toNat) =
      ((a * 10 ^ i.toNat * 2 ^ (-j).toNat : Nat) : ℚ) := by
    push_cast
    rw [← zpow_toNat (by norm_num) i]
    ring
  have right : b * 2 ^ j * (10 ^ (-i).toNat * 2 ^ (-j).toNat) =
      ((b * 2 ^ j.toNat * 10 ^ (-i).toNat : Nat) : ℚ) := by
    push_cast
    rw [← zpow_toNat (by norm_num) j]
    ring
  rw [← cmp_mul_pos_right scale, left, right, Nat.strictMono_cast.cmp_map_eq, cmp_eq_compare]
  rfl

section Bounds

variable (x : Binary64)

/-- The gap above a number is its last place. -/
theorem gapAt_magnitude : gapAt x.magnitude = 2 ^ (x.exponent + 1074).toNat := by
  obtain ⟨short, least, normal⟩ := x.canonical
  have place := x.magnitude_eq
  unfold gapAt
  congr 1
  omega

theorem halfway_above :
    2 * halfway x.magnitude = (4 * x.significand + 2) * 2 ^ (x.exponent + 1074).toNat := by
  unfold halfway
  rw [unitsAt_succ, gapAt_magnitude, ← units_eq, units]
  ring

theorem isNarrowBelow_iff :
    x.isNarrowBelow = true ↔ x.magnitude % 2 ^ 52 = 0 ∧ 2 ^ 53 ≤ x.magnitude := by
  simp [isNarrowBelow]

theorem halfway_below {k : Nat} (next : k + 1 = x.magnitude) :
    2 * halfway k = (if x.isNarrowBelow then 4 * x.significand - 1 else 4 * x.significand - 2) *
      2 ^ (x.exponent + 1074).toNat := by
  obtain ⟨short, least, normal⟩ := x.canonical
  have place := x.magnitude_eq
  have gap := unitsAt_succ k
  rw [next, ← x.units_eq] at gap
  have twice : 2 * halfway k = 4 * x.units - 2 * gapAt k := by
    unfold halfway
    rw [next, ← x.units_eq]
    omega
  have whole : 4 * x.units = 4 * x.significand * 2 ^ (x.exponent + 1074).toNat := by
    unfold units
    ring
  rw [twice, whole]
  split
  · rename_i narrow
    obtain ⟨edge, normal⟩ := isNarrowBelow_iff x |>.mp narrow
    have half : 2 * gapAt k = 2 ^ (x.exponent + 1074).toNat := by
      unfold gapAt
      rw [← Nat.pow_succ']
      congr 1
      omega
    rw [half, Nat.sub_mul, Nat.one_mul]
  · rename_i wide
    have inside := mt (isNarrowBelow_iff x).mpr wide
    have same : gapAt k = 2 ^ (x.exponent + 1074).toNat := by
      unfold gapAt
      congr 1
      omega
    rw [same, Nat.sub_mul]

/-- The last place, in units of the least number. -/
theorem last_place : (2 : ℚ) ^ x.exponent * unitsInOne = 2 ^ (x.exponent + 1074).toNat := by
  obtain ⟨short, least, normal⟩ := x.canonical
  have one : (unitsInOne : ℚ) = 2 ^ 1074 := Nat.cast_pow 2 1074
  rw [one, ← zpow_natCast, ← zpow_natCast, ← zpow_add₀ two_ne_zero]
  congr 1
  omega

theorem units_value : (x.units : ℚ) = x.significand * 2 ^ x.exponent * unitsInOne := by
  unfold units
  rw [mul_assoc, last_place, Nat.cast_mul, Nat.cast_pow]
  rfl

/-- Quarters of the last place, in quarters of the least number. -/
theorem quarters (n : Nat) : (n : ℚ) * 2 ^ (x.exponent - 2) * (unitsInOne * 4) =
    (n * 2 ^ (x.exponent + 1074).toNat : Nat) := by
  have four : (2 : ℚ) ^ (x.exponent - 2) * 4 = 2 ^ x.exponent := by
    rw [zpow_sub₀ two_ne_zero]
    norm_num
  have place := x.last_place
  rw [← four] at place
  rw [Nat.cast_mul, Nat.cast_pow, Nat.cast_ofNat, ← place]
  ring

theorem compareScaled_quarters (d : Decimal) (n : Nat) :
    compareScaled d.digits d.exponent n (x.exponent - 2) =
      cmp (2 * (2 * (d.value * unitsInOne))) (n * 2 ^ (x.exponent + 1074).toNat : Nat) := by
  have positive : (0 : ℚ) < unitsInOne * 4 := by
    have := unitsInOne_pos
    positivity
  have decimal : d.digits * 10 ^ d.exponent * (unitsInOne * 4 : ℚ) =
      2 * (2 * (d.value * unitsInOne)) := by
    unfold Decimal.value
    ring
  rw [compareScaled_eq, ← cmp_mul_pos_right positive, quarters, decimal]

theorem readsBack_rounds {d : Decimal} (read : x.readsBack d = true) :
    RoundsTo (d.value * unitsInOne) x.magnitude := by
  have even : x.significand % 2 = 0 ↔ x.magnitude % 2 = 0 := by
    have place := x.magnitude_eq
    omega
  have twice (k : Nat) : ((2 * halfway k : Nat) : ℚ) = 2 * halfway k := Nat.cast_mul 2 _
  unfold readsBack at read
  simp only [compareScaled_quarters, Bool.and_eq_true, Bool.or_eq_true, beq_iff_eq, cmp_eq_lt_iff,
    cmp_eq_gt_iff, cmp_eq_eq_iff, even] at read
  obtain ⟨low, high⟩ := read
  constructor
  · rw [← halfway_above, twice] at high
    rcases high with less | ⟨closed, same⟩
    · exact .inl (by linarith)
    · exact .inr ⟨by linarith, closed⟩
  · intro k next
    rw [← halfway_below x next, twice] at low
    rcases low with less | ⟨closed, same⟩
    · exact .inl (by linarith)
    · exact .inr ⟨by linarith, closed⟩

end Bounds

theorem onGrid_readsBack {x : Binary64} {place : Int} {d : Decimal}
    (found : x.onGrid place = some d) : x.readsBack d = true := by
  unfold onGrid at found
  dsimp only at found
  split at found
  · cases found
  · rename_i low _
    obtain rfl := Option.some.inj found
    exact low
  · rename_i _ high
    obtain rfl := Option.some.inj found
    exact high
  · rename_i low high
    split at found
    · obtain rfl := Option.some.inj found
      exact low
    · obtain rfl := Option.some.inj found
      exact high

theorem firstOnGrid_readsBack {x : Binary64} {steps : Nat} {place : Int} {d : Decimal}
    (found : x.firstOnGrid steps place = some d) : x.readsBack d = true := by
  induction steps generalizing place with
  | zero => cases found
  | succ steps ih =>
    unfold firstOnGrid at found
    split at found
    · rename_i here
      obtain rfl := Option.some.inj found
      exact onGrid_readsBack here
    · exact ih found

/-- Where no grid has been fine enough, every digit is written. -/
theorem exact_value (x : Binary64) :
    Decimal.value ⟨x.significand * Nat.pow 5 (-x.exponent).toNat * Nat.pow 2 x.exponent.toNat,
      min x.exponent 0⟩ = x.significand * 2 ^ x.exponent := by
  have five : (10 : ℚ) ^ min x.exponent 0 * 5 ^ (-x.exponent).toNat =
      2 ^ min x.exponent 0 := by
    have place : min x.exponent 0 = -((-x.exponent).toNat : Int) := by omega
    have ten : (10 : ℚ) = 2 * 5 := by norm_num
    rw [place, zpow_neg, zpow_neg, zpow_natCast, zpow_natCast, ten, mul_pow]
    field_simp
  have two : (2 : ℚ) ^ min x.exponent 0 * 2 ^ x.exponent.toNat = 2 ^ x.exponent := by
    rw [← zpow_natCast, ← zpow_add₀ two_ne_zero]
    congr 1
    omega
  unfold Decimal.value
  simp only [Nat.pow_eq, Nat.cast_mul, Nat.cast_pow, Nat.cast_ofNat]
  rw [← two, ← five]
  ring

theorem shortest_rounds (x : Binary64) : RoundsTo (x.shortest.value * unitsInOne) x.magnitude := by
  have exactly := roundsTo_unitsAt x.magnitude
  rw [← x.units_eq, units_value] at exactly
  unfold shortest
  split
  · rename_i nothing
    rw [nothing, Nat.cast_zero, zero_mul] at exactly
    have zero : Decimal.value ⟨0, 0⟩ = 0 := by simp [Decimal.value]
    rwa [zero]
  · dsimp only
    cases found : x.firstOnGrid 17 (x.placeAbove 8 x.placeEstimate - 1) with
    | some d => exact x.readsBack_rounds (firstOnGrid_readsBack found)
    | none => rwa [Option.getD_none, exact_value]

/-! The text of a decimal. -/

/-- Digits with a point in front of those of the fraction, if there are any. -/
def pointed (whole fraction : List Char) : List Char :=
  whole ++ if fraction = [] then [] else '.' :: fraction

theorem pointed_inj {whole whole' fraction fraction' : List Char}
    (digits : ∀ c ∈ whole, c.isDigit = true) (digits' : ∀ c ∈ whole', c.isDigit = true)
    (same : pointed whole fraction = pointed whole' fraction') :
    whole = whole' ∧ fraction = fraction' := by
  have whole_of {whole : List Char} (digits : ∀ c ∈ whole, c.isDigit = true)
      (fraction : List Char) : (pointed whole fraction).takeWhile Char.isDigit = whole := by
    unfold pointed
    rw [List.takeWhile_append_of_pos digits]
    split <;> simp
  have fraction_of {whole : List Char} (digits : ∀ c ∈ whole, c.isDigit = true)
      (fraction : List Char) : ((pointed whole fraction).dropWhile Char.isDigit).tail = fraction := by
    unfold pointed
    rw [List.dropWhile_append_of_pos digits]
    split
    · rename_i nothing
      simp [nothing]
    · simp
  constructor
  · rw [← whole_of digits fraction, same, whole_of digits']
  · rw [← fraction_of digits fraction, same, fraction_of digits']

theorem take_append_zeros {cs : List Char} {t : Nat}
    (trailing : t ≤ (cs.reverse.takeWhile (· == '0')).length) :
    cs.take (cs.length - t) ++ List.replicate t '0' = cs := by
  have inside : t ≤ cs.reverse.length := trailing.trans (List.takeWhile_prefix _).length_le
  have zeros : cs.drop (cs.length - t) = List.replicate t '0' := by
    apply List.eq_replicate_iff.mpr
    constructor
    · rw [List.length_reverse] at inside
      rw [List.length_drop]
      omega
    · intro c mem
      have last : c ∈ cs.reverse.take t := by
        rw [List.take_reverse]
        exact List.mem_reverse.mpr mem
      have within : cs.reverse.take t <+: cs.reverse.takeWhile (· == '0') := by
        apply List.prefix_of_prefix_length_le (List.take_prefix _ _) (List.takeWhile_prefix _)
        rwa [List.length_take, Nat.min_eq_left inside]
      simpa using List.mem_takeWhile_imp (within.subset last)
  rw [← zeros, List.take_append_drop]

theorem digitsValue_append (cs more : List Char) :
    digitsValue (cs ++ more) = digitsValue cs * 10 ^ more.length + digitsValue more := by
  change Nat.ofDigitChars 10 (cs ++ more) 0 = _
  rw [Nat.ofDigitChars_append, Nat.ofDigitChars_eq_ofDigitChars_zero, Nat.mul_comm]
  rfl

theorem digitsValue_zeros (t : Nat) : digitsValue (List.replicate t '0') = 0 :=
  Nat.ofDigitChars_replicate_zero

theorem digitsValue_toDigits (n : Nat) : digitsValue (Nat.toDigits 10 n) = n :=
  Nat.ofDigitChars_ten_toDigits

theorem pointed_nil (whole : List Char) : pointed whole [] = whole := List.append_nil whole

theorem pointed_of_ne_nil {fraction : List Char} (some_digit : fraction ≠ []) (whole : List Char) :
    pointed whole fraction = whole ++ '.' :: fraction := by
  rw [pointed, if_neg some_digit]

/-- Digits of which so many are behind the point, as far as there are so many. -/
theorem shifted_digits {kept : List Char} (digit : ∀ c ∈ kept, c.isDigit = true)
    (some_digit : kept ≠ []) (places : Nat) : ∃ whole fraction : List Char,
    (if places = 0 then String.ofList kept
      else if kept.length > places then
        String.ofList (kept.take (kept.length - places) ++ '.' :: kept.drop (kept.length - places))
      else String.ofList ('0' :: '.' :: List.replicate (places - kept.length) '0' ++ kept)) =
        String.ofList (pointed whole fraction) ∧ whole ≠ [] ∧
      (∀ c ∈ whole, c.isDigit = true) ∧ fraction.length = places ∧
      digitsValue (whole ++ fraction) = digitsValue kept := by
  split
  · rename_i none_behind
    refine ⟨kept, [], ?_, some_digit, digit, none_behind.symm, ?_⟩
    · rw [pointed_nil]
    · rw [List.append_nil]
  · rename_i behind
    split
    · rename_i enough
      have length : (kept.drop (kept.length - places)).length = places := by
        rw [List.length_drop]
        omega
      refine ⟨kept.take (kept.length - places), kept.drop (kept.length - places), ?_, ?_, ?_,
        length, ?_⟩
      · rw [pointed_of_ne_nil (List.ne_nil_of_length_pos (by omega))]
      · apply List.ne_nil_of_length_pos
        rw [List.length_take]
        omega
      · exact fun c mem => digit c (List.mem_of_mem_take mem)
      · rw [List.take_append_drop]
    · rename_i few
      have length : (List.replicate (places - kept.length) '0' ++ kept).length = places := by
        rw [List.length_append, List.length_replicate]
        omega
      refine ⟨['0'], List.replicate (places - kept.length) '0' ++ kept, ?_, by simp, by simp,
        length, ?_⟩
      · rw [pointed_of_ne_nil (List.ne_nil_of_length_pos (by omega))]
        rfl
      · rw [← List.append_assoc]
        change digitsValue (List.replicate (places - kept.length + 1) '0' ++ kept) = _
        rw [digitsValue_append, digitsValue_zeros, Nat.zero_mul, Nat.zero_add]

/-- The text is the digits of the decimal, as many behind the point as its place tells. -/
theorem positional_eq (d : Decimal) : ∃ whole fraction : List Char,
    d.positional = String.ofList (pointed whole fraction) ∧ whole ≠ [] ∧
      (∀ c ∈ whole, c.isDigit = true) ∧
      d.value * 10 ^ fraction.length = digitsValue (whole ++ fraction) := by
  have digit : ∀ c ∈ Nat.toDigits 10 d.digits, c.isDigit = true :=
    fun c => Nat.isDigit_of_mem_toDigits (by decide) (by decide)
  by_cases nothing : d.digits = 0
  · refine ⟨['0'], [], by simp [Decimal.positional, nothing, pointed], by simp, by simp, ?_⟩
    simp [Decimal.value, nothing, digitsValue]
  unfold Decimal.positional
  rw [if_neg nothing]
  dsimp only
  rcases Int.lt_or_le d.exponent 0 with negative | natural
  · rw [if_pos negative, if_neg (Int.not_le.mpr negative)]
    generalize dropped_eq : min _ (-d.exponent).toNat = dropped
    generalize kept_eq : (Nat.toDigits 10 d.digits).take _ = kept
    have trailing : kept ++ List.replicate dropped '0' = Nat.toDigits 10 d.digits := by
      rw [← kept_eq]
      exact take_append_zeros (by omega)
    have value : digitsValue kept * 10 ^ dropped = d.digits := by
      rw [← digitsValue_toDigits d.digits, ← trailing, digitsValue_append, digitsValue_zeros,
        List.length_replicate, Nat.add_zero]
    have some_digit : kept ≠ [] := by
      rintro rfl
      rw [← value] at nothing
      exact nothing (Nat.zero_mul _)
    have digit_kept : ∀ c ∈ kept, c.isDigit = true :=
      fun c mem => digit c (trailing ▸ List.mem_append_left _ mem)
    obtain ⟨whole, fraction, text, first, digits, length, same⟩ :=
      shifted_digits digit_kept some_digit ((-d.exponent).toNat - dropped)
    have shifted : (10 : ℚ) ^ dropped * 10 ^ ((-d.exponent).toNat - dropped) * 10 ^ d.exponent = 1 := by
      have scaled := zpow_toNat (by norm_num : (10 : ℚ) ≠ 0) d.exponent
      rw [Int.toNat_of_nonpos (Int.le_of_lt negative), pow_zero] at scaled
      rw [← pow_add, Nat.add_sub_cancel' (by omega), mul_comm, scaled]
    refine ⟨whole, fraction, text, first, digits, ?_⟩
    rw [length, same, Decimal.value, ← value, Nat.cast_mul, Nat.cast_pow]
    linear_combination (digitsValue kept : ℚ) * shifted
  · rw [if_neg (Int.not_lt.mpr natural), if_pos natural]
    refine ⟨Nat.toDigits 10 d.digits ++ List.replicate d.exponent.toNat '0', [], ?_, ?_, ?_, ?_⟩
    · simp [pointed_nil]
    · simp [Nat.toDigits_ne_nil]
    · intro c mem
      rcases List.mem_append.mp mem with mem | mem
      · exact digit c mem
      · rw [List.eq_of_mem_replicate mem]
        rfl
    · have scaled := zpow_toNat (by norm_num : (10 : ℚ) ≠ 0) d.exponent
      rw [Int.toNat_of_nonpos (by omega : -d.exponent ≤ 0), pow_zero, mul_one] at scaled
      rw [List.append_nil, digitsValue_append, digitsValue_zeros, digitsValue_toDigits,
        List.length_replicate, Decimal.value, scaled]
      simp

theorem value_unique {d d' : Decimal} (same : d.positional = d'.positional) : d.value = d'.value := by
  obtain ⟨whole, fraction, text, -, digits, value⟩ := positional_eq d
  obtain ⟨whole', fraction', text', -, digits', value'⟩ := positional_eq d'
  rw [text, text'] at same
  obtain ⟨rfl, rfl⟩ := pointed_inj digits digits' (String.ofList_injective same)
  have positive : (10 : ℚ) ^ fraction.length ≠ 0 := by positivity
  exact mul_right_cancel₀ positive (value.trans value'.symm)

/-- A sign is told from the digits. -/
theorem positional_unsigned (d d' : Decimal) : "-" ++ d.positional ≠ d'.positional := by
  intro same
  obtain ⟨whole, fraction, text, some_digit, digits, -⟩ := positional_eq d'
  obtain ⟨c, rest, rfl⟩ := List.exists_cons_of_ne_nil some_digit
  have first : '-' = c := by
    have heads := congrArg (fun s => s.toList.head?) same
    simpa [text, pointed] using heads
  have digit := digits c List.mem_cons_self
  rw [← first] at digit
  cases digit

theorem eq_of_sign_magnitude {x y : Binary64} (sign : x.isNegative = y.isNegative)
    (magnitude : x.magnitude = y.magnitude) : x = y := by
  apply rank_inj
  unfold rank
  rw [sign, magnitude]

/-- Numbers that are written alike are the same. -/
theorem text_injective {x y : Binary64} (finite : x.isFinite = true) (finite' : y.isFinite = true)
    (same : x.text = y.text) : x = y := by
  have magnitude (alike : x.shortest.positional = y.shortest.positional) :
      x.magnitude = y.magnitude := by
    have there := shortest_rounds y
    rw [← value_unique alike] at there
    exact (shortest_rounds x).unique there
  simp only [text, number_of_finite finite, number_of_finite finite', finite, finite',
    Bool.false_eq_true, if_false, if_true] at same
  cases sign : x.isNegative <;> cases sign' : y.isNegative <;>
    simp only [sign, sign', Bool.false_eq_true, if_false, if_true] at same
  · exact eq_of_sign_magnitude (sign.trans sign'.symm) (magnitude (by simpa using same))
  · exact absurd same.symm (by simpa using positional_unsigned _ _)
  · exact absurd same (by simpa using positional_unsigned _ _)
  · exact eq_of_sign_magnitude (sign.trans sign'.symm) (magnitude (by simpa using same))

end HedgedStore.Binary64

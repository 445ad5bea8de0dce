import HedgedStore.Number.Binary64
import Mathlib.Algebra.Ring.Nat
import Mathlib.Data.List.Sort

/-! The total order of binary64 numbers. It tells any two numbers apart, so a list in order is
determined by what is in it. -/
namespace HedgedStore.Binary64

theorem isNegative_iff {x : Binary64} : x.isNegative = true ↔ 2 ^ 63 ≤ x.bits.toNat := by
  simp [isNegative, UInt64.le_iff_toNat_le]

theorem bits_eq (x : Binary64) :
    x.bits.toNat = x.magnitude + if x.isNegative then 2 ^ 63 else 0 := by
  have bound := x.bits.toNat_lt
  unfold magnitude
  by_cases negative : x.isNegative = true
  · have high := isNegative_iff.mp negative
    rw [if_pos negative]
    omega
  · have low := mt isNegative_iff.mpr negative
    rw [if_neg negative]
    omega

theorem rank_inj {x y : Binary64} (h : x.rank = y.rank) : x = y := by
  have bits : x.bits.toNat = y.bits.toNat := by
    rw [x.bits_eq, y.bits_eq]
    unfold rank at h
    by_cases first : x.isNegative = true <;> by_cases second : y.isNegative = true <;>
      simp only [first, second, if_true, Bool.false_eq_true, if_false] at h ⊢ <;> omega
  exact congrArg mk (UInt64.toNat_inj.mp bits)

theorem atMost_iff {x y : Binary64} : x.atMost y = true ↔ x.rank ≤ y.rank := by
  simp [atMost]

/-- Numbers without a sign are in order as they are in magnitude. -/
theorem atMost_iff_of_positive {x y : Binary64} (first : x.isNegative = false)
    (second : y.isNegative = false) : x.atMost y = true ↔ x.magnitude ≤ y.magnitude := by
  rw [atMost_iff]
  simp [rank, first, second]

theorem atMost_trans (x y z : Binary64) (first : x.atMost y = true) (second : y.atMost z = true) :
    x.atMost z = true := by
  rw [atMost_iff] at *
  exact first.trans second

theorem atMost_total (x y : Binary64) : (x.atMost y || y.atMost x) = true := by
  rw [Bool.or_eq_true, atMost_iff, atMost_iff]
  exact le_total _ _

theorem atMost_antisymm {x y : Binary64} (first : x.atMost y = true) (second : y.atMost x = true) :
    x = y := by
  rw [atMost_iff] at *
  exact rank_inj (le_antisymm first second)

theorem mergeSort_eq_of_perm {xs ys : List Binary64} (same : xs.Perm ys) :
    xs.mergeSort atMost = ys.mergeSort atMost := by
  have perm : (xs.mergeSort atMost).Perm (ys.mergeSort atMost) :=
    ((List.mergeSort_perm xs atMost).trans same).trans (List.mergeSort_perm ys atMost).symm
  refine perm.eq_of_pairwise ?_ (List.pairwise_mergeSort atMost_trans atMost_total xs)
    (List.pairwise_mergeSort atMost_trans atMost_total ys)
  intro x y _ _ first second
  exact atMost_antisymm first second

end HedgedStore.Binary64

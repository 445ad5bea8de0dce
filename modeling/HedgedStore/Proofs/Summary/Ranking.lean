import HedgedStore.Proofs.Number.Shares
import HedgedStore.Proofs.Summary.Presence

/-! The quantiles among each other. They are listed in order and so are their values, from the least
number that is retained to the greatest one, and nothing but the numbers counts: neither the order
in which they came nor the slices that hold them. -/
namespace HedgedStore.Summary

open Binary64 (atMost)

/-- In the total order. -/
def InOrder (numbers : List Binary64) : Prop := numbers.Pairwise fun x y => x.atMost y = true

theorem inOrder_mergeSort (numbers : List Binary64) : InOrder (numbers.mergeSort atMost) :=
  List.pairwise_mergeSort Binary64.atMost_trans Binary64.atMost_total numbers

section Ranks

variable {sorted : List Binary64} {size i j : Nat} {p q x : Binary64}

/-- Where the nearest rank stands among so many sorted numbers. -/
def rankIndex (size : Nat) (q : Binary64) : Nat := min (q.placeOf size - 1) (size - 1)

theorem rankIndex_lt (some_number : 0 < size) (q : Binary64) : rankIndex size q < size := by
  unfold rankIndex
  omega

theorem rankIndex_mono (first : p.inUnitInterval = true) (second : q.inUnitInterval = true)
    (le : p.atMost q = true) (size : Nat) : rankIndex size p ≤ rankIndex size q :=
  min_le_min_right _ (Nat.sub_le_sub_right (Binary64.placeOf_mono first second le size) 1)

theorem nearestRank_eq (inside : rankIndex sorted.length q < sorted.length) :
    nearestRank sorted.toArray q = sorted[rankIndex sorted.length q] := by
  have found : sorted.toArray[rankIndex sorted.length q]? = some sorted[rankIndex sorted.length q] := by
    rw [List.getElem?_toArray, List.getElem?_eq_getElem inside]
  exact congrArg (Option.getD · .nan) found

theorem InOrder.getElem (ordered : InOrder sorted) (le : i ≤ j) (inside : j < sorted.length) :
    have before : i < sorted.length := le.trans_lt inside
    sorted[i].atMost sorted[j] = true := by
  intro before
  rcases Nat.eq_or_lt_of_le le with rfl | less
  · rw [Binary64.atMost_iff]
  · exact List.pairwise_iff_getElem.mp ordered i j _ inside less

theorem nearestRank_mono (ordered : InOrder sorted) (first : p.inUnitInterval = true)
    (second : q.inUnitInterval = true) (le : p.atMost q = true) :
    (nearestRank sorted.toArray p).atMost (nearestRank sorted.toArray q) = true := by
  rcases Nat.eq_zero_or_pos sorted.length with empty | some_number
  · rw [List.length_eq_zero_iff.mp empty, nearestRank_nil, nearestRank_nil]
    decide
  · rw [nearestRank_eq (rankIndex_lt some_number p), nearestRank_eq (rankIndex_lt some_number q)]
    exact ordered.getElem (rankIndex_mono first second le _) _

theorem nearestRank_zero (ordered : InOrder sorted) (within : q.inUnitInterval = true)
    (nothing : q.magnitude = 0) (mem : x ∈ sorted) :
    (nearestRank sorted.toArray q).atMost x = true := by
  have insignificant : q.significand = 0 := by
    rw [(Binary64.significand_of_small (by omega)).1, nothing]
  have place := Binary64.placeOf_zero (Binary64.regular_of_inUnitInterval within).1 insignificant
    sorted.length
  have first : rankIndex sorted.length q = 0 := by
    unfold rankIndex
    omega
  obtain ⟨i, inside, rfl⟩ := List.getElem_of_mem mem
  rw [nearestRank_eq (rankIndex_lt (Nat.zero_lt_of_lt inside) q)]
  exact ordered.getElem (first ▸ Nat.zero_le i) inside

theorem nearestRank_one (ordered : InOrder sorted)
    (exact_count : Binary64.one.placeOf sorted.length = sorted.length) (mem : x ∈ sorted) :
    x.atMost (nearestRank sorted.toArray .one) = true := by
  obtain ⟨i, inside, rfl⟩ := List.getElem_of_mem mem
  have last : i ≤ rankIndex sorted.length .one := by
    unfold rankIndex
    omega
  rw [nearestRank_eq (rankIndex_lt (Nat.zero_lt_of_lt inside) .one)]
  exact ordered.getElem last _

end Ranks

theorem Options.quantiles_within {options : Options} {plan : Plan}
    (planned : options.plan = .ok plan) : ∀ q ∈ plan.quantiles, q.inUnitInterval = true := by
  intro q mem
  rw [(Options.plan_eq_ok planned).2] at mem
  unfold Options.plan at planned
  split at planned
  · cases planned
  · dsimp only at planned
    split at planned
    · cases planned
    · rename_i none_outside
      have inside := List.find?_eq_none.mp none_outside q (List.mem_mergeSort.mp mem)
      simpa using inside

/-- How quantiles stand to each other and to the numbers that they are taken over. -/
structure Ranked (asked numbers : List Binary64) (quantiles : List (Binary64 × Binary64)) : Prop where
  listed : (quantiles.map (·.1)).Perm asked
  ordered : InOrder (quantiles.map (·.1))
  rising : InOrder (quantiles.map (·.2))
  unanswered : numbers = [] → ∀ r ∈ quantiles, r.2 = .nan
  /-- Each rank is that of a number. -/
  placed : numbers ≠ [] → ∀ r ∈ quantiles,
    ∃ inside : rankIndex numbers.length r.1 < (numbers.mergeSort atMost).length,
      r.2 = (numbers.mergeSort atMost)[rankIndex numbers.length r.1]
  /-- Zero may have a sign. -/
  least : ∀ r ∈ quantiles, r.1.magnitude = 0 → ∀ x ∈ numbers, r.2.atMost x = true
  /-- A count beyond those that binary64 numbers can tell may be rounded. -/
  greatest : ∀ r ∈ quantiles, r.1 = .one →
    Binary64.one.placeOf numbers.length = numbers.length → ∀ x ∈ numbers, x.atMost r.2 = true

theorem ranked_of_quantiles {asked quantiles numbers : List Binary64} (listed : quantiles.Perm asked)
    (ordered : InOrder quantiles) (within : ∀ q ∈ quantiles, q.inUnitInterval = true) :
    Ranked asked numbers
      (quantiles.map fun q => (q, nearestRank (numbers.mergeSort atMost).toArray q)) := by
  have sorted := inOrder_mergeSort numbers
  have perm := List.mergeSort_perm numbers atMost
  have keys : (quantiles.map fun q => (q, nearestRank (numbers.mergeSort atMost).toArray q)).map
      (·.1) = quantiles := by
    rw [List.map_map]
    exact List.map_id _
  constructor
  · rwa [keys]
  · rwa [keys]
  · rw [List.map_map]
    apply List.pairwise_map.mpr
    apply List.Pairwise.imp_of_mem _ ordered
    intro p q p_mem q_mem le
    exact nearestRank_mono sorted (within p p_mem) (within q q_mem) le
  · rintro rfl r mem
    obtain ⟨q, -, rfl⟩ := List.mem_map.mp mem
    rw [List.mergeSort_nil]
    exact nearestRank_nil q
  · intro nonempty r mem
    obtain ⟨q, -, rfl⟩ := List.mem_map.mp mem
    have inside := rankIndex_lt (List.length_pos_iff.mpr nonempty) q
    rw [← perm.length_eq] at inside ⊢
    exact ⟨inside, nearestRank_eq inside⟩
  · intro r mem nothing x x_mem
    obtain ⟨q, q_mem, rfl⟩ := List.mem_map.mp mem
    exact nearestRank_zero sorted (within q q_mem) nothing (perm.mem_iff.mpr x_mem)
  · intro r mem one counted x x_mem
    obtain ⟨q, -, rfl⟩ := List.mem_map.mp mem
    obtain rfl : q = .one := one
    exact nearestRank_one sorted (by rwa [perm.length_eq]) (perm.mem_iff.mpr x_mem)

namespace Window

variable {plan : Plan} {window later : Window} {now : Instant} {shown : Snapshot}

/-- All numbers of the live slices, slice by slice. -/
def retained (window : Window) : List Binary64 :=
  window.slices.flatMap fun slice => slice.samples.toList

theorem snapshot_quantiles (read : window.snapshot plan now = some (shown, later)) :
    shown.quantiles = plan.quantiles.map fun q =>
      (q, nearestRank (later.retained.mergeSort atMost).toArray q) := by
  obtain ⟨rotated, -, same⟩ := Option.map_eq_some_iff.mp read
  obtain ⟨rfl, rfl⟩ := Prod.mk.inj same
  rfl

end Window

/-- Whatever a window holds: a snapshot lists the accepted quantiles in order, each with the number
at its rank among the retained ones, and these numbers rise from the least to the greatest. Two
snapshots over the same numbers list the same. -/
theorem quantiles_ranked {options : Options} {labels : List String} {form : Form}
    (formed : options.form labels = .ok form) {window later : Window} {now : Instant}
    {shown : Snapshot} (read : window.snapshot form.plan now = some (shown, later)) :
    Ranked (options.objectives.map (·.1)) later.retained shown.quantiles ∧
    ∀ (other last : Window) (time : Instant) (told : Snapshot),
      other.snapshot form.plan time = some (told, last) → last.retained.Perm later.retained →
      told.quantiles = shown.quantiles := by
  have planned := Options.form_eq_ok formed
  have listed : form.plan.quantiles = (options.objectives.map (·.1)).mergeSort atMost := by
    rw [(Options.plan_eq_ok planned).2]
  have quantiles := Window.snapshot_quantiles read
  constructor
  · rw [quantiles]
    apply ranked_of_quantiles _ _ (Options.quantiles_within planned)
    · rw [listed]
      exact List.mergeSort_perm _ _
    · rw [listed]
      exact inOrder_mergeSort _
  · intro other last time told again same
    rw [quantiles, Window.snapshot_quantiles again, Binary64.mergeSort_eq_of_perm same]

/-- The ends and the middle, asked for out of order. -/
def spread : Options :=
  { name := "w", help := "h"
    objectives := [(.one, .zero), (⟨0x8000000000000000⟩, .zero), (⟨0x3FE0000000000000⟩, .zero)]
    maxAge := ⟨20⟩, ageBuckets := 2 }

/-- Two slices with a NaN, an infinity and a number. -/
def mixed : Window :=
  { slices := [⟨#[.nan, .one], 2⟩, ⟨#[.infinity], 1⟩], deadline := ⟨10⟩ }

theorem mixed_ranked : ∃ form shown, spread.form [] = .ok form ∧
    mixed.snapshot form.plan ⟨0⟩ = some (shown, mixed) ∧ shown.quantiles.length = 3 ∧
    InOrder (shown.quantiles.map (·.2)) ∧
    (∀ r ∈ shown.quantiles, r.1 = .one → ∀ x ∈ mixed.retained, x.atMost r.2 = true) := by
  let plan : Plan :=
    { quantiles := (spread.objectives.map (·.1)).mergeSort atMost
      slice := ⟨10⟩, slices := 2, capacity := 512 }
  have within : (spread.objectives.map (·.1)).find? (fun q => !q.inUnitInterval) = none := by
    decide +kernel
  have planned : spread.plan = .ok plan := by
    unfold Options.plan
    rw [if_neg (by decide)]
    dsimp only
    rw [within]
    rfl
  let form : Form := { description := { name := "w", help := "h" }, plan }
  have formed : spread.form [] = .ok form := by
    rw [Options.form, planned]
    rfl
  have read : mixed.snapshot form.plan ⟨0⟩ = some (mixed.read form.plan, mixed) := rfl
  obtain ⟨ranked, -⟩ := quantiles_ranked formed read
  refine ⟨form, _, formed, read, ?_, ranked.rising, ?_⟩
  · have listed := ranked.listed.length_eq
    rwa [List.length_map] at listed
  · intro r mem one
    exact ranked.greatest r mem one (Binary64.placeOf_one (by decide))

end HedgedStore.Summary

import HedgedStore.Gzip.Balance
import HedgedStore.Proofs.Gzip.Words
import Mathlib.Algebra.BigOperators.Group.Finset.Basic
import Mathlib.Algebra.BigOperators.Ring.Finset
import Mathlib.Data.List.Nodup

/-! The code lengths that are made for some weights are those of a complete code. A split gives each
part half of all words, and neither part more symbols than it has room for, so the shares of the words
add up to the whole on every level. -/
namespace HedgedStore.Gzip

namespace Leaf

/-! Splits. -/

/-- Each part has a leaf at least, and as many leaves at most as there is room for. -/
theorem cut_bounds {room : Nat} {leaves : List Leaf} (two : 1 < leaves.length)
    (few : leaves.length ≤ 2 ^ (room + 1)) :
    0 < cut room leaves ∧ cut room leaves < leaves.length ∧ cut room leaves ≤ 2 ^ room ∧
      leaves.length - cut room leaves ≤ 2 ^ room := by
  have some : 0 < 2 ^ room := Nat.two_pow_pos room
  have power : Nat.pow 2 room = 2 ^ room := rfl
  rw [Nat.pow_succ] at few
  simp only [cut, power]
  generalize beforeMiddle _ 0 leaves = middle
  omega

theorem map_depths_fst (room : Nat) (leaves : List Leaf) :
    (depths room leaves).map (·.1) = leaves.map (·.symbol) := by
  induction room generalizing leaves with
  | zero => simp [depths]
  | succ room ih =>
    rw [depths]
    split
    · simp
    · have parts := List.take_append_drop (cut room leaves) leaves
      calc _ = ((depths room (leaves.take (cut room leaves)) ++
            depths room (leaves.drop (cut room leaves))).map (·.1)) := by simp [Function.comp_def]
        _ = leaves.map (·.symbol) := by rw [List.map_append, ih, ih, ← List.map_append, parts]

theorem depths_le (room : Nat) (leaves : List Leaf) :
    ∀ entry ∈ depths room leaves, entry.2 ≤ room := by
  induction room generalizing leaves with
  | zero => simp [depths]
  | succ room ih =>
    rw [depths]
    split
    · simp
    · intro entry member
      obtain ⟨above, among, rfl⟩ := List.mem_map.mp member
      refine Nat.succ_le_succ ?_
      rcases List.mem_append.mp among with front | back
      · exact ih _ above front
      · exact ih _ above back

theorem depths_pos {room : Nat} {leaves : List Leaf} (two : 1 < leaves.length) :
    ∀ entry ∈ depths (room + 1) leaves, 0 < entry.2 := by
  rw [depths, if_neg (Nat.not_le_of_lt two)]
  intro entry member
  obtain ⟨above, -, rfl⟩ := List.mem_map.mp member
  exact Nat.succ_pos _

theorem sum_alone {leaves : List Leaf} (one : leaves.length = 1) (whole : Nat) :
    ((leaves.map fun leaf => (leaf.symbol, 0)).map fun entry => 2 ^ (whole - entry.2)).sum =
      2 ^ whole := by
  obtain ⟨leaf, rfl⟩ := List.length_eq_one_iff.mp one
  simp

/-- The words take up all the room that there is, however much that is. -/
theorem sum_depths {room whole : Nat} {leaves : List Leaf} (fits : room ≤ whole)
    (some : 0 < leaves.length) (few : leaves.length ≤ 2 ^ room) :
    ((depths room leaves).map fun entry => 2 ^ (whole - entry.2)).sum = 2 ^ whole := by
  induction room generalizing whole leaves with
  | zero => exact sum_alone (Nat.le_antisymm few some) whole
  | succ room ih =>
    rw [depths]
    split
    · rename_i one
      exact sum_alone (Nat.le_antisymm one some) whole
    · rename_i more
      obtain ⟨front_some, back_some, front_few, back_few⟩ :=
        cut_bounds (Nat.lt_of_not_le more) few
      obtain ⟨half, rfl⟩ : ∃ half, whole = half + 1 := ⟨whole - 1, by omega⟩
      have within : room ≤ half := Nat.le_of_succ_le_succ fits
      have front : ((depths room (leaves.take (cut room leaves))).map
          fun entry => 2 ^ (half - entry.2)).sum = 2 ^ half :=
        ih within (by rw [List.length_take]; omega) (by rw [List.length_take]; omega)
      have back : ((depths room (leaves.drop (cut room leaves))).map
          fun entry => 2 ^ (half - entry.2)).sum = 2 ^ half :=
        ih within (by rw [List.length_drop]; omega) (by rw [List.length_drop]; omega)
      rw [List.splitAt_eq, List.map_map, List.map_append, List.sum_append]
      simp only [Function.comp_def, Nat.add_sub_add_right]
      rw [front, back, Nat.pow_succ, Nat.mul_two]

/-! The leaves for some weights. -/

theorem mem_ofWeights {weights : List Nat} {leaf : Leaf} :
    leaf ∈ ofWeights weights ↔ weights[leaf.symbol]? = some leaf.weight ∧ leaf.weight ≠ 0 := by
  obtain ⟨symbol, weight⟩ := leaf
  rw [ofWeights, List.mem_mergeSort, List.mem_filterMap]
  constructor
  · rintro ⟨⟨found, place⟩, member, kept⟩
    split at kept
    · cases kept
    · rename_i some
      obtain ⟨rfl, rfl⟩ := Leaf.mk.inj (Option.some.inj kept)
      exact ⟨List.mem_zipIdx_iff_getElem?.mp member, by simpa using some⟩
  · rintro ⟨found, some⟩
    refine ⟨(weight, symbol), List.mem_zipIdx_iff_getElem?.mpr found, ?_⟩
    simp [some]

theorem nodup_symbols (weights : List Nat) : ((ofWeights weights).map (·.symbol)).Nodup := by
  have sorted := List.mergeSort_perm (weights.zipIdx.filterMap fun entry =>
    if entry.1 == 0 then none else some (⟨entry.2, entry.1⟩ : Leaf))
    fun a b => decide (b.weight ≤ a.weight)
  have places : (weights.zipIdx.map (·.2)).Nodup := by
    rw [List.zipIdx_map_snd]
    exact List.nodup_range'
  refine (sorted.map _).nodup_iff.mpr ?_
  rw [List.Nodup, List.pairwise_map, List.pairwise_filterMap]
  refine (List.pairwise_map.mp places).imp fun apart leaf found other found' => ?_
  split at found
  · cases found
  · split at found'
    · cases found'
    · obtain rfl := Option.some.inj found
      obtain rfl := Option.some.inj found'
      exact apart

theorem length_ofWeights (weights : List Nat) :
    (ofWeights weights).length = PrefixCode.used weights := by
  rw [ofWeights, List.length_mergeSort, List.length_filterMap_eq_countP, PrefixCode.used]
  conv_rhs => rw [← List.zipIdx_map_fst 0 weights, List.countP_map]
  refine List.countP_congr fun entry _ => ?_
  simp only [Function.comp_apply]
  split <;> simp_all

end Leaf

/-! Weights for those that have none. -/

theorem length_enlist (more : Nat) (weights : List Nat) :
    (enlist more weights).length = weights.length := by
  induction weights generalizing more with
  | nil => cases more <;> rfl
  | cons weight weights ih =>
    cases more with
    | zero => rfl
    | succ more =>
      rw [enlist]
      split <;> rw [List.length_cons, ih, List.length_cons]

theorem enlist_keeps {more symbol weight : Nat} {weights : List Nat}
    (found : weights[symbol]? = some weight) (occurs : weight ≠ 0) :
    (enlist more weights)[symbol]? = some weight := by
  induction weights generalizing more symbol with
  | nil => cases found
  | cons first weights ih =>
    cases more with
    | zero => exact found
    | succ more =>
      rw [enlist]
      cases symbol with
      | zero =>
        obtain rfl := Option.some.inj found
        rw [if_neg (by simpa using occurs)]
        rfl
      | succ symbol =>
        split
        · exact ih found
        · exact ih found

theorem used_cons (weight : Nat) (weights : List Nat) :
    PrefixCode.used (weight :: weights) =
      PrefixCode.used weights + if weight = 0 then 0 else 1 := by
  by_cases zero : weight = 0 <;> simp [PrefixCode.used, zero]

theorem used_enlist {more : Nat} {weights : List Nat}
    (enough : PrefixCode.used weights + more ≤ weights.length) :
    PrefixCode.used (enlist more weights) = PrefixCode.used weights + more := by
  induction weights generalizing more with
  | nil =>
    obtain rfl : more = 0 := Nat.eq_zero_of_add_eq_zero_left (Nat.le_zero.mp enough)
    rfl
  | cons weight weights ih =>
    cases more with
    | zero => rfl
    | succ more =>
      rw [used_cons, List.length_cons] at enough
      rw [enlist]
      by_cases zero : weight = 0
      · rw [if_pos zero] at enough
        have rest := @ih more (by omega)
        rw [if_pos (beq_iff_eq.mpr zero), used_cons, used_cons, rest, if_pos zero,
          if_neg Nat.one_ne_zero]
        omega
      · rw [if_neg zero] at enough
        have rest := @ih (more + 1) (by omega)
        rw [if_neg (by simpa using zero), used_cons, used_cons, rest, if_neg zero]
        omega

theorem used_le_length (weights : List Nat) : PrefixCode.used weights ≤ weights.length :=
  List.countP_le_length

/-! Lengths by their symbols. -/

theorem sum_update {size key : Nat} (inside : key < size) (value : Nat) {f g : Nat → Nat}
    (there : g key = f key + value) (elsewhere : ∀ other, other ≠ key → g other = f other) :
    ((List.range size).map g).sum = ((List.range size).map f).sum + value := by
  have member : key ∈ Finset.range size := Finset.mem_range.mpr inside
  have parts (h : Nat → Nat) : ((List.range size).map h).sum =
      h key + ∑ other ∈ (Finset.range size).erase key, h other :=
    (Finset.add_sum_erase _ h member).symm
  have rest : ∑ other ∈ (Finset.range size).erase key, g other =
      ∑ other ∈ (Finset.range size).erase key, f other :=
    Finset.sum_congr rfl fun other among => elsewhere other (Finset.ne_of_mem_erase among)
  rw [parts, parts, rest, there]
  omega

/-- What is found for all keys is all that there is to find. -/
theorem sum_lookup {found : List (Nat × Nat)} {size : Nat} (distinct : (found.map (·.1)).Nodup)
    (inside : ∀ entry ∈ found, entry.1 < size) {f : Nat → Nat} (nothing : f 0 = 0) :
    ((List.range size).map fun key => f ((found.lookup key).getD 0)).sum =
      (found.map fun entry => f entry.2).sum := by
  induction found with
  | nil => simp [nothing]
  | cons entry found ih =>
    obtain ⟨key, value⟩ := entry
    obtain ⟨fresh, distinct⟩ := List.nodup_cons.mp distinct
    obtain ⟨first_inside, inside⟩ := List.forall_mem_cons.mp inside
    have absent : found.lookup key = none := by
      refine List.lookup_eq_none_iff.mpr ?_
      rintro ⟨other, _⟩ member
      refine bne_iff_ne.mpr ?_
      rintro rfl
      exact fresh (List.mem_map.mpr ⟨_, member, rfl⟩)
    have step := sum_update first_inside (f value)
      (f := fun key => f ((found.lookup key).getD 0))
      (g := fun other => f ((((key, value) :: found).lookup other).getD 0))
      (by simp [absent, nothing]) (fun other apart => by
        simp [List.lookup_cons, beq_eq_false_iff_ne.mpr apart])
    rw [step, ih distinct inside, List.map_cons, List.sum_cons, Nat.add_comm]

theorem mem_of_lookup {found : List (Nat × Nat)} {key value : Nat}
    (there : found.lookup key = some value) : (key, value) ∈ found := by
  obtain ⟨front, back, rfl, -⟩ := List.lookup_eq_some_iff.mp there
  exact List.mem_append_right front (List.mem_cons_self ..)

/-! The lengths of a code. -/

/-- Weights of more than one symbol, and no more of them than the greatest length tells apart. -/
structure Fitting (limit : Nat) (weights : List Nat) : Prop where
  two : 2 ≤ weights.length
  few : weights.length ≤ 2 ^ limit
  short : limit ≤ 15

/-- The symbols that get words, and the lengths of these. -/
def depthsOf (limit : Nat) (weights : List Nat) : List (Nat × Nat) :=
  Leaf.depths limit (Leaf.ofWeights (enlist (2 - PrefixCode.used weights) weights))

section Lengths

variable {limit : Nat} {weights : List Nat}

theorem balancedLengths_eq (limit : Nat) (weights : List Nat) :
    balancedLengths limit weights =
      (List.range weights.length).map fun symbol =>
        ((depthsOf limit weights).lookup symbol).getD 0 := by
  simp only [balancedLengths, length_enlist, depthsOf]

theorem depth_lt {entry : Nat × Nat} (member : entry ∈ depthsOf limit weights) :
    entry.1 < weights.length := by
  have symbol := List.mem_map_of_mem (f := Prod.fst) member
  rw [depthsOf, Leaf.map_depths_fst] at symbol
  obtain ⟨leaf, among, same⟩ := List.mem_map.mp symbol
  have there := (List.getElem?_eq_some_iff.mp (Leaf.mem_ofWeights.mp among).1).1
  rw [length_enlist] at there
  rwa [← same]

theorem nodup_depthsOf (limit : Nat) (weights : List Nat) :
    ((depthsOf limit weights).map (·.1)).Nodup := by
  rw [depthsOf, Leaf.map_depths_fst]
  exact Leaf.nodup_symbols _

theorem Fitting.leaves (fitting : Fitting limit weights) :
    1 < (Leaf.ofWeights (enlist (2 - PrefixCode.used weights) weights)).length ∧
      (Leaf.ofWeights (enlist (2 - PrefixCode.used weights) weights)).length ≤ 2 ^ limit := by
  have two := fitting.two
  have few := fitting.few
  have most := used_le_length weights
  rw [Leaf.length_ofWeights, used_enlist (by omega)]
  omega

theorem Fitting.depth_pos (fitting : Fitting limit weights) :
    ∀ entry ∈ depthsOf limit weights, 0 < entry.2 := by
  cases limit with
  | zero =>
    have two := fitting.two
    have few := fitting.few
    rw [Nat.pow_zero] at few
    omega
  | succ room => exact Leaf.depths_pos fitting.leaves.1

theorem depth_le {entry : Nat × Nat} (member : entry ∈ depthsOf limit weights) : entry.2 ≤ limit :=
  Leaf.depths_le limit _ entry member

theorem length_balancedLengths (limit : Nat) (weights : List Nat) :
    (balancedLengths limit weights).length = weights.length := by
  rw [balancedLengths_eq, List.length_map, List.length_range]

theorem balancedLengths_complete (fitting : Fitting limit weights) :
    PrefixCode.Complete (balancedLengths limit weights) := by
  obtain ⟨two, few⟩ := fitting.leaves
  have shares : (depthsOf limit weights).map (fun entry => PrefixCode.share 15 entry.2) =
      (depthsOf limit weights).map fun entry => 2 ^ (15 - entry.2) :=
    List.map_congr_left fun entry member =>
      if_pos ⟨fitting.depth_pos entry member, (depth_le member).trans fitting.short⟩
  rw [PrefixCode.Complete, balancedLengths_eq, List.map_map]
  calc _ = ((depthsOf limit weights).map fun entry => PrefixCode.share 15 entry.2).sum :=
        sum_lookup (nodup_depthsOf limit weights) (fun _ => depth_lt) rfl
    _ = ((depthsOf limit weights).map fun entry => 2 ^ (15 - entry.2)).sum := by rw [shares]
    _ = 2 ^ 15 := Leaf.sum_depths fitting.short (Nat.zero_lt_of_lt two) few

theorem balancedLengths_le : ∀ length ∈ balancedLengths limit weights, length ≤ limit := by
  rw [balancedLengths_eq]
  intro length member
  obtain ⟨symbol, -, rfl⟩ := List.mem_map.mp member
  cases there : (depthsOf limit weights).lookup symbol with
  | none => exact Nat.zero_le _
  | some length => exact depth_le (mem_of_lookup there)

/-- A symbol that occurs has a word. -/
theorem balancedLengths_pos (fitting : Fitting limit weights) {symbol weight : Nat}
    (found : weights[symbol]? = some weight) (occurs : weight ≠ 0) :
    ∃ length, (balancedLengths limit weights)[symbol]? = some length ∧ 0 < length := by
  have leaf : (⟨symbol, weight⟩ : Leaf) ∈
      Leaf.ofWeights (enlist (2 - PrefixCode.used weights) weights) :=
    Leaf.mem_ofWeights.mpr ⟨enlist_keeps found occurs, occurs⟩
  have key : symbol ∈ (depthsOf limit weights).map (·.1) := by
    rw [depthsOf, Leaf.map_depths_fst]
    exact List.mem_map_of_mem leaf
  have inside : symbol < weights.length := (List.getElem?_eq_some_iff.mp found).1
  rw [balancedLengths_eq, List.getElem?_map, List.getElem?_range inside, Option.map_some]
  refine ⟨_, rfl, ?_⟩
  cases there : (depthsOf limit weights).lookup symbol with
  | none =>
    obtain ⟨entry, member, rfl⟩ := List.mem_map.mp key
    simpa using List.lookup_eq_none_iff.mp there entry member
  | some length => exact fitting.depth_pos _ (mem_of_lookup there)

end Lengths

end HedgedStore.Gzip

import HedgedStore.Gzip.Matching
import HedgedStore.Proofs.Gzip.Format

/-! Data split into phrases is what the phrases tell. Whatever places are tried for a copy, they lie
before it, and the copy goes no further than the bytes agree. -/
namespace HedgedStore.Gzip

/-- A copy that the symbols can tell. -/
def Phrase.Fits : Phrase → Prop
  | .byte _ => True
  | .copy length distance =>
    (shortestCopy ≤ length ∧ length ≤ longestCopy) ∧ 0 < distance ∧ distance ≤ furthestCopy

/-- Phrases, one after another, each of which the symbols can tell. -/
inductive Recounts (blank : Option UInt8) : Bytes → List Phrase → Bytes → Prop where
  | nil {data : Bytes} : Recounts blank data [] data
  | cons {before between after : Bytes} {phrase : Phrase} {phrases : List Phrase}
      (fits : phrase.Fits) (continued : phrase.Continues blank before between)
      (onward : Recounts blank between phrases after) :
      Recounts blank before (phrase :: phrases) after

variable {blank : Option UInt8}

theorem Recounts.snoc {before between after : Bytes} {phrases : List Phrase} {phrase : Phrase}
    (told : Recounts blank before phrases between) (fits : phrase.Fits)
    (continued : phrase.Continues blank between after) :
    Recounts blank before (phrases ++ [phrase]) after := by
  induction told with
  | nil => exact .cons fits continued .nil
  | cons first_fits first _ ih => exact .cons first_fits first (ih continued)

variable {data : Array UInt8}

theorem commonLength_le (i j limit : Nat) : commonLength data i j limit ≤ limit := by
  induction limit generalizing i j with
  | zero => exact Nat.le_refl 0
  | succ limit ih =>
    rw [commonLength]
    split
    · exact Nat.succ_le_succ (ih _ _)
    · exact Nat.zero_le _

theorem commonLength_agrees {i j limit k : Nat} (inside : k < commonLength data i j limit) :
    j + k < data.size ∧ data.getD (i + k) 0 = data.getD (j + k) 0 := by
  induction limit generalizing i j k with
  | zero => exact absurd inside (Nat.not_lt_zero k)
  | succ limit ih =>
    rw [commonLength] at inside
    split at inside
    · rename_i same
      rw [Bool.and_eq_true, decide_eq_true_eq, beq_iff_eq] at same
      cases k with
      | zero => exact same
      | succ k =>
        have rest := ih (Nat.lt_of_succ_lt_succ inside)
        rwa [Nat.succ_add_eq_add_succ, Nat.succ_add_eq_add_succ] at rest
    · exact absurd inside (Nat.not_lt_zero k)

/-- A copy that can stand at a place, if it is one at all. -/
structure Copyable (data : Array UInt8) (i : Nat) (copy : Nat × Nat) : Prop where
  short : copy.1 ≤ longestCopy
  inside : i + copy.1 ≤ data.size
  near : 0 < copy.1 → 0 < copy.2
  reached : copy.2 ≤ i
  close : copy.2 ≤ furthestCopy
  agrees : ∀ k < copy.1, data.getD (i - copy.2 + k) 0 = data.getD (i + k) 0

theorem Copyable.none {i : Nat} (inside : i ≤ data.size) : Copyable data i (0, 0) :=
  ⟨Nat.zero_le _, inside, id, Nat.zero_le _, Nat.zero_le _,
    fun _ few => absurd few (Nat.not_lt_zero _)⟩

theorem copyable_common {i candidate : Nat} (inside : i ≤ data.size) (before : candidate < i)
    (close : i - candidate ≤ furthestCopy) :
    Copyable data i (commonLength data candidate i longestCopy, i - candidate) := by
  constructor
  case short => exact commonLength_le candidate i longestCopy
  case inside =>
    dsimp only
    rcases Nat.eq_zero_or_pos (commonLength data candidate i longestCopy) with none | some
    · rwa [none]
    · have last := (commonLength_agrees (Nat.sub_lt some Nat.one_pos)).1
      omega
  case near => exact fun _ => Nat.sub_pos_of_lt before
  case reached => exact Nat.sub_le i candidate
  case close => exact close
  case agrees =>
    intro k few
    dsimp only
    rw [Nat.sub_sub_self (Nat.le_of_lt before)]
    exact (commonLength_agrees few).2

theorem toList_getElem? {i : Nat} (inside : i < data.size) :
    data.toList[i]? = some (data.getD i 0) := by
  rw [Array.getElem?_toList, Array.getD_eq_getD_getElem?, Array.getElem?_eq_getElem inside,
    Option.getD_some]

theorem Copyable.continues {i length distance : Nat} (copyable : Copyable data i (length, distance))
    (some : 0 < length) :
    (Phrase.copy length distance).Continues blank (data.toList.take i)
      (data.toList.take (i + length)) := by
  have inside := copyable.inside
  have reached := copyable.reached
  dsimp only at inside reached
  have before : (data.toList.take i).length = i := by
    rw [List.length_take, Array.length_toList]
    omega
  have after : (data.toList.take (i + length)).length = i + length := by
    rw [List.length_take, Array.length_toList]
    omega
  refine .copy (copyable.near some) (List.take_prefix_take_left (Nat.le_add_right _ _))
    (by rw [after, before]) ?_
  rw [before, after]
  intro k beyond within
  obtain ⟨m, rfl⟩ := Nat.exists_eq_add_of_le beyond
  have agree := copyable.agrees m (Nat.lt_of_add_lt_add_left within)
  have source : i + m - distance = i - distance + m := by omega
  rw [if_pos (by omega), List.getElem?_take_of_lt within, List.getElem?_take_of_lt (by omega),
    source, toList_getElem? (by omega), toList_getElem? (by omega), ← agree]

namespace PlaceIndex

/-- Every place points back. -/
structure Sound (index : PlaceIndex) (i : Nat) : Prop where
  latest : ∀ slot, index.latest.getD slot 0 = 0 ∨ index.latest.getD slot 0 < i
  earlier : ∀ j, index.earlier.getD j 0 = 0 ∨ index.earlier.getD j 0 < j

theorem sound_empty (size : Nat) : (empty size).Sound 0 := by
  have zeros (n j : Nat) : (Array.replicate n 0).getD j 0 = 0 := by
    rw [Array.getD_eq_getD_getElem?, Array.getElem?_replicate]
    split <;> rfl
  exact ⟨fun j => .inl (zeros _ j), fun j => .inl (zeros _ j)⟩

theorem Sound.insert {index : PlaceIndex} {i : Nat} (sound : index.Sound i) (slot : Nat) :
    (index.insert slot i).Sound (i + 1) := by
  constructor
  · intro j
    have kept := sound.latest j
    simp only [PlaceIndex.insert, Array.getD_eq_getD_getElem?,
      Array.getElem?_setIfInBounds] at kept ⊢
    split
    · split
      · exact .inr (Nat.lt_succ_self i)
      · exact .inl rfl
    · omega
  · intro j
    have kept := sound.earlier j
    have back := sound.latest slot
    simp only [PlaceIndex.insert, Array.getD_eq_getD_getElem?,
      Array.getElem?_setIfInBounds] at kept back ⊢
    split
    · rename_i here
      subst here
      split
      · exact back
      · exact .inl rfl
    · exact kept

theorem Sound.copyable {index : PlaceIndex} {i candidate : Nat} {best : Nat × Nat}
    (sound : index.Sound i) (inside : i ≤ data.size) (back : candidate = 0 ∨ candidate < i)
    (copyable : Copyable data i best) (tries : Nat) :
    Copyable data i (longestCopy? data index.earlier i tries candidate best) := by
  induction tries generalizing candidate best with
  | zero => exact copyable
  | succ tries ih =>
    rw [longestCopy?]
    split
    · exact copyable
    · rename_i going
      split
      · exact copyable
      · rename_i close
        rw [Bool.or_eq_true, beq_iff_eq, decide_eq_true_eq, not_or] at going
        have before : candidate < i := back.resolve_left going.1
        have onward := sound.earlier candidate
        refine ih (by omega) ?_
        split
        · exact copyable_common inside before (Nat.le_of_not_lt close)
        · exact copyable

end PlaceIndex

/-- At each place the phrases so far tell the data up to there, and a copy that reaches beyond it up
to its end. -/
theorem phrasesFrom_recounts {rest i covered : Nat} {index : PlaceIndex} {told : List Phrase}
    (all : i + rest = data.size) (sound : index.Sound i) (inside : i + covered ≤ data.size)
    (recounts : Recounts blank [] told.reverse (data.toList.take (i + covered))) :
    Recounts blank [] (phrasesFrom data rest i covered index told) data.toList := by
  induction rest generalizing i covered index told with
  | zero =>
    rw [List.take_of_length_le (by rw [Array.length_toList]; omega)] at recounts
    exact recounts
  | succ rest ih =>
    have later := sound.insert (PlaceIndex.slot data i)
    have onward : i + 1 + rest = data.size := by omega
    rcases Nat.eq_zero_or_pos covered with rfl | under
    · have found := sound.copyable (by omega) (sound.latest (PlaceIndex.slot data i))
        (Copyable.none (by omega)) 32
      simp only [phrasesFrom, Nat.lt_irrefl, if_false]
      generalize PlaceIndex.longestCopy? data index.earlier i 32
        (index.latest.getD (PlaceIndex.slot data i) 0) (0, 0) = copy at found
      obtain ⟨length, distance⟩ := copy
      dsimp only
      split
      · rename_i long
        have some : 0 < length := Nat.lt_of_lt_of_le (by decide) long
        refine ih onward later ?_ ?_
        · have := found.inside
          dsimp only at this
          omega
        · have next : i + 1 + (length - 1) = i + length := by omega
          rw [List.reverse_cons, next]
          exact recounts.snoc ⟨⟨long, found.short⟩, found.near some, found.close⟩
            (found.continues some)
      · refine ih onward later (by omega) ?_
        have byte : data.toList.take (i + 1) = data.toList.take i ++ [data.getD i 0] := by
          rw [List.take_add_one, toList_getElem? (by omega)]
          rfl
        rw [List.reverse_cons, Nat.add_zero, byte]
        exact recounts.snoc trivial (.byte _)
    · simp only [phrasesFrom, if_pos under]
      refine ih onward later (by omega) ?_
      have next : i + 1 + (covered - 1) = i + covered := by omega
      rwa [next]

theorem phrases_recount (blank : Option UInt8) (data : Bytes) :
    Recounts blank [] (phrases data) data := by
  have start : Recounts blank [] (List.reverse []) (data.toArray.toList.take (0 + 0)) := .nil
  exact phrasesFrom_recounts (Nat.zero_add _) (PlaceIndex.sound_empty _) (Nat.zero_le _) start

end HedgedStore.Gzip

import HedgedStore.Gzip.Deflate
import HedgedStore.Proofs.Gzip.Blocks
import HedgedStore.Proofs.Gzip.Matching
import Mathlib.Data.List.Induction

/-! Phrases are written as they are to be read: lengths and distances by their classes, symbols by
the words of a code, and the bits of it all in bytes. A code will do if it has a word for each symbol
that occurs and not too many words; the fixed one has words for all symbols. -/
namespace HedgedStore.Gzip

/-! Classes. -/

/-- Values without a gap, each class reaching up to the next one, and the last one to a limit. -/
def Contiguous (limit : Nat) : List (Nat × Nat) → Prop
  | [] => False
  | [last] => limit ≤ last.1 + 2 ^ last.2
  | first :: second :: rest => second.1 ≤ first.1 + 2 ^ first.2 ∧ Contiguous limit (second :: rest)

theorem place_of_class {first : Nat × Nat} {classes : List (Nat × Nat)} {limit n : Nat}
    (contiguous : Contiguous limit (first :: classes)) (low : first.1 ≤ n) (high : n < limit) :
    ∃ base bits,
      (first :: classes)[((first :: classes).takeWhile fun c => decide (c.1 ≤ n)).length - 1]? =
        some (base, bits) ∧ base ≤ n ∧ n < base + 2 ^ bits := by
  induction classes generalizing first with
  | nil =>
    have reached : limit ≤ first.1 + 2 ^ first.2 := contiguous
    exact ⟨first.1, first.2, by simp [low], low, by omega⟩
  | cons second classes ih =>
    obtain ⟨next, rest⟩ := contiguous
    by_cases further : second.1 ≤ n
    · obtain ⟨base, bits, found, bounds⟩ := ih rest further
      refine ⟨base, bits, ?_, bounds⟩
      have passed : (second :: classes).takeWhile (fun c => decide (c.1 ≤ n)) =
          second :: classes.takeWhile fun c => decide (c.1 ≤ n) :=
        List.takeWhile_cons_of_pos (by simpa using further)
      rw [List.takeWhile_cons_of_pos (by simpa using low)]
      rw [passed] at found ⊢
      exact found
    · refine ⟨first.1, first.2, ?_, low, by omega⟩
      rw [List.takeWhile_cons_of_pos (by simpa using low),
        List.takeWhile_cons_of_neg (by simpa using further)]
      rfl

theorem classOf_offset {first : Nat × Nat} {classes : List (Nat × Nat)} (limit : Nat) {n : Nat}
    (contiguous : Contiguous limit (first :: classes)) (low : first.1 ≤ n) (high : n < limit) :
    Offset (first :: classes) (classOf (first :: classes) n).1 n
      (bitsOf (classOf (first :: classes) n).2.1 (classOf (first :: classes) n).2.2) := by
  obtain ⟨base, bits, found, least, most⟩ := place_of_class contiguous low high
  have place : classOf (first :: classes) n =
      (((first :: classes).takeWhile fun c => decide (c.1 ≤ n)).length - 1, bits, n - base) := by
    simp only [classOf, found]
  rw [place]
  dsimp only
  refine ⟨base, by rw [length_bitsOf]; exact found, ?_⟩
  rw [← natBits_eq, ← ofBits_eq, ofBits_natBits, Nat.mod_eq_of_lt (by omega),
    Nat.add_sub_cancel' least]

theorem Offset.place_lt {classes : List (Nat × Nat)} {place value : Nat} {bits : List Bool}
    (told : Offset classes place value bits) : place < classes.length := by
  obtain ⟨base, found, -⟩ := told
  exact (List.getElem?_eq_some_iff.mp found).1

theorem classOf_length {n : Nat} (low : shortestCopy ≤ n) (high : n ≤ longestCopy) :
    Offset lengthScale (classOf lengthClasses n).1 n
      (bitsOf (classOf lengthClasses n).2.1 (classOf lengthClasses n).2.2) := by
  rw [← lengthClasses_eq]
  exact classOf_offset 259 (by simp [Contiguous]) low (Nat.lt_succ_of_le high)

theorem classOf_distance {n : Nat} (low : 0 < n) (high : n ≤ furthestCopy) :
    Offset distanceScale (classOf distanceClasses n).1 n
      (bitsOf (classOf distanceClasses n).2.1 (classOf distanceClasses n).2.2) := by
  rw [← distanceClasses_eq]
  exact classOf_offset 32769 (by simp [Contiguous]) low (Nat.lt_succ_of_le high)

/-! Words. -/

namespace PrefixCode

theorem foldl_firstWords (counts found : List Nat) (total : Nat) :
    (counts.foldl (fun (state : List Nat × Nat) words =>
      (2 * state.2 :: state.1, 2 * state.2 + words)) (found, total)).1.reverse =
        found.reverse ++ (List.range counts.length).map (firstBelow (2 * total) counts) := by
  induction counts generalizing found total with
  | nil => simp
  | cons words counts ih =>
    have below : firstBelow (2 * total) (words :: counts) ∘ Nat.succ =
        firstBelow (2 * (2 * total + words)) counts :=
      funext fun depth => firstBelow_cons (2 * total) words counts depth
    rw [List.foldl_cons, ih, List.length_cons, List.range_succ_eq_map, List.map_cons, List.map_map,
      below]
    simp [firstBelow]

theorem firstWords_getElem? (lengths : List Nat) {depth : Nat} (small : depth < longestWord) :
    (firstWords lengths)[depth]? = some (firstBelow 0 (counts lengths) depth) := by
  have size : (counts lengths).length = longestWord := by simp [counts]
  rw [firstWords, foldl_firstWords, size]
  simp [small]

/-- The words of some symbols and the next number of each length, the first ones given. -/
def written (first : Array Nat) (lengths : List Nat) : Array (List Bool) × Array Nat :=
  lengths.foldl (fun state length =>
    let number := state.2.getD length 0
    let word := if length == 0 then [] else (natBits length number).reverse
    (state.1.push word, state.2.setIfInBounds length (number + 1))) (#[], first)

section Written

variable (first : Array Nat) (lengths : List Nat)

theorem written_snoc (length : Nat) :
    written first (lengths ++ [length]) =
      ((written first lengths).1.push (if length == 0 then [] else
        (natBits length ((written first lengths).2.getD length 0)).reverse),
      (written first lengths).2.setIfInBounds length
        ((written first lengths).2.getD length 0 + 1)) := by
  rw [written, List.foldl_append]
  rfl

theorem size_written :
    (written first lengths).1.size = lengths.length ∧
      (written first lengths).2.size = first.size := by
  induction lengths using List.reverseRecOn with
  | nil => exact ⟨rfl, rfl⟩
  | append_singleton lengths length ih => simp [written_snoc, ih]

theorem next_written {length : Nat} (known : length < first.size) :
    (written first lengths).2.getD length 0 = first.getD length 0 + lengths.count length := by
  induction lengths using List.reverseRecOn with
  | nil => rfl
  | append_singleton lengths last ih =>
    have size := (size_written first lengths).2
    rw [written_snoc, Array.getD_eq_getD_getElem?, Array.getElem?_setIfInBounds, List.count_append]
    by_cases same : last = length
    · subst same
      rw [if_pos rfl, if_pos (by rwa [size]), Option.getD_some, List.count_singleton_self, ih,
        Nat.add_assoc]
    · rw [if_neg same, ← Array.getD_eq_getD_getElem?, ih, List.count_singleton, beq_false_of_ne same]
      rfl

theorem getD_written {symbol length : Nat} (found : lengths[symbol]? = some length)
    (some : 0 < length) (known : length < first.size) :
    (written first lengths).1.getD symbol [] =
      (natBits length (first.getD length 0 + (lengths.take symbol).count length)).reverse := by
  induction lengths using List.reverseRecOn with
  | nil => cases found
  | append_singleton lengths last ih =>
    have size := (size_written first lengths).1
    rw [written_snoc, Array.getD_eq_getD_getElem?, Array.getElem?_push]
    rcases Nat.lt_trichotomy symbol lengths.length with before | rfl | beyond
    · rw [List.getElem?_append_left before] at found
      rw [if_neg (by omega), ← Array.getD_eq_getD_getElem?, ih found,
        List.take_append_of_le_length (Nat.le_of_lt before)]
    · rw [List.getElem?_concat_length] at found
      obtain rfl := Option.some.inj found
      rw [if_pos size.symm, Option.getD_some, List.take_left, next_written first lengths known,
        if_neg (by simpa using Nat.ne_of_gt some)]
    · rw [List.getElem?_eq_none (by rw [List.length_append]; exact beyond)] at found
      cases found

end Written

/-- The words of a length, and the beginnings of that length of all shorter ones. -/
theorem firstWord_add_count (lengths : List Nat) (length : Nat) :
    firstWord lengths (length + 1) + lengths.count (length + 1) =
      (lengths.map (share (length + 1))).sum := by
  induction length with
  | zero =>
    have none : (lengths.map (share 0)).sum = 0 :=
      List.sum_eq_zero_iff_forall_eq_nat.mpr fun n member => by
        obtain ⟨length, -, rfl⟩ := List.mem_map.mp member
        exact if_neg (by omega)
    rw [sum_share_succ, none]
    rfl
  | succ length ih => rw [sum_share_succ, ← ih, firstWord]

/-- A code has no more words of a length and beginnings of such than there are, if it has not for the
greatest length. -/
theorem sum_share_le {lengths : List Nat} (length more : Nat)
    (fits : (lengths.map (share (length + more))).sum ≤ 2 ^ (length + more)) :
    (lengths.map (share length)).sum ≤ 2 ^ length := by
  induction more with
  | zero => exact fits
  | succ more ih =>
    rw [← Nat.add_assoc, sum_share_succ, Nat.pow_succ] at fits
    exact ih (by omega)

/-- A code that has words for some symbols, and no more words than there can be. -/
structure Suits (lengths symbols : List Nat) : Prop where
  fits : (lengths.map (share 15)).sum ≤ 2 ^ 15
  has : ∀ symbol ∈ symbols, ∃ length, lengths[symbol]? = some length ∧ 0 < length ∧ length ≤ 15

theorem Suits.mono {lengths symbols fewer : List Nat} (suits : Suits lengths symbols)
    (among : fewer ⊆ symbols) : Suits lengths fewer :=
  ⟨suits.fits, fun symbol member => suits.has symbol (among member)⟩

/-- The word that is written for a symbol is its word. -/
theorem Suits.isWord {lengths symbols : List Nat} (suits : Suits lengths symbols) {symbol : Nat}
    (member : symbol ∈ symbols) : IsWord lengths symbol ((words lengths).getD symbol []) := by
  obtain ⟨length, found, some, short⟩ := suits.has symbol member
  obtain ⟨depth, rfl⟩ : ∃ depth, length = depth + 1 := ⟨length - 1, by omega⟩
  have known : depth + 1 < (0 :: firstWords lengths).toArray.size := by
    have there := firstWords_getElem? lengths short
    have := (List.getElem?_eq_some_iff.mp there).1
    simpa using this
  have first : (0 :: firstWords lengths).toArray.getD (depth + 1) 0 =
      firstWord lengths (depth + 1) := by
    rw [Array.getD_eq_getD_getElem?, List.getElem?_toArray, List.getElem?_cons_succ,
      firstWords_getElem? lengths short, Option.getD_some,
      firstBelow_counts (Nat.le_of_succ_le short)]
  have word : (words lengths).getD symbol [] = _ := getD_written _ lengths found some known
  rw [word, first]
  have among := count_take_lt found
  have small : firstWord lengths (depth + 1) + (lengths.take symbol).count (depth + 1) <
      2 ^ (depth + 1) := by
    have whole : depth + 1 + (15 - (depth + 1)) = 15 := Nat.add_sub_cancel' short
    have most := sum_share_le (depth + 1) (15 - (depth + 1)) (by rw [whole]; exact suits.fits)
    rw [← firstWord_add_count] at most
    omega
  have size : (natBits (depth + 1) (firstWord lengths (depth + 1) +
      (lengths.take symbol).count (depth + 1))).reverse.length = depth + 1 := by
    rw [List.length_reverse, natBits_length]
  constructor
  case length => rw [size, found]
  case nonempty => exact List.ne_nil_of_length_eq_add_one size
  case short => rwa [size]
  case number =>
    rw [size, List.reverse_reverse, ← ofBits_eq, ofBits_natBits, Nat.mod_eq_of_lt small]

end PrefixCode

/-! Bits in bytes. -/

theorem byteBits_ofBits {bits : List Bool} (fits : bits.length ≤ 8) :
    byteBits (ofBits bits).toUInt8 = bits ++ natBits (8 - bits.length) 0 := by
  have high : ofBits bits / 2 ^ bits.length = 0 := Nat.div_eq_of_lt (ofBits_lt bits)
  have parts := natBits_add bits.length (8 - bits.length) (ofBits bits)
  rw [Nat.add_sub_cancel' fits, natBits_ofBits, high] at parts
  rw [byteBits_toUInt8, parts]

theorem packBits_go {current : List Bool} {room : Nat} (bits : List Bool) (packed : Bytes)
    (full : current.length + room = 8) :
    ∃ padding : List Bool, (packBits.go current room bits packed).flatMap byteBits =
      packed.reverse.flatMap byteBits ++ (current.reverse ++ (bits ++ padding)) ∧
        padding.length < 8 := by
  induction bits generalizing current room packed with
  | nil =>
    cases current with
    | nil => exact ⟨[], by simp [packBits.go], by decide⟩
    | cons b current =>
      have fits : (b :: current).reverse.length ≤ 8 := by
        rw [List.length_reverse]
        omega
      refine ⟨natBits (8 - (b :: current).reverse.length) 0, ?_, ?_⟩
      · rw [packBits.go, if_neg (by exact nofun), List.reverse_cons, List.flatMap_append,
          List.flatMap_singleton, byteBits_ofBits fits, List.nil_append]
      · rw [natBits_length, List.length_reverse, List.length_cons]
        omega
  | cons b bits ih =>
    cases room with
    | zero =>
      have eight : current.reverse.length = 8 := by rwa [List.length_reverse]
      have byte : byteBits (ofBits current.reverse).toUInt8 = current.reverse := by
        rw [byteBits_ofBits (Nat.le_of_eq eight), eight]
        exact List.append_nil _
      obtain ⟨padding, rest, few⟩ := @ih [b] 7 ((ofBits current.reverse).toUInt8 :: packed) rfl
      refine ⟨padding, ?_, few⟩
      rw [packBits.go, rest, List.reverse_cons, List.flatMap_append, List.flatMap_singleton, byte]
      simp
    | succ room =>
      obtain ⟨padding, rest, few⟩ := @ih (b :: current) room packed (by
        rw [List.length_cons]
        omega)
      refine ⟨padding, ?_, few⟩
      rw [packBits.go, rest]
      simp

theorem packBits_bits (bits : List Bool) :
    ∃ padding : List Bool, streamOf (packBits bits) = bits ++ padding ∧ padding.length < 8 := by
  rw [← flatMap_byteBits]
  exact packBits_go bits [] rfl

/-! Phrases in a code. -/

theorem symbolsOf_tail (phrase : Phrase) (phrases : List Phrase) :
    symbolsOf phrases ⊆ symbolsOf (phrase :: phrases) := by
  intro symbol member
  simp only [symbolsOf, List.mem_cons, List.map_cons] at member ⊢
  tauto

theorem distancesOf_tail (phrase : Phrase) (phrases : List Phrase) :
    distancesOf phrases ⊆ distancesOf (phrase :: phrases) :=
  ((List.sublist_cons_self phrase phrases).filterMap _).subset

section Coded

open PrefixCode

variable {blank : Option UInt8} {symbols distances : List Nat} {before after : Bytes}
  {phrases : List Phrase}

theorem phrases_phraseBits (recounts : Recounts blank before phrases after)
    (symbols_suit : Suits symbols (symbolsOf phrases))
    (distances_suit : Suits distances (distancesOf phrases)) :
    Phrases blank symbols distances before after (phraseBits symbols distances phrases) := by
  induction recounts with
  | nil => exact .ended (symbols_suit.isWord (List.mem_cons_self ..))
  | @cons _ _ _ phrase phrases fits continued onward ih =>
    have rest := ih (symbols_suit.mono (symbolsOf_tail phrase phrases))
      (distances_suit.mono (distancesOf_tail phrase phrases))
    have first : phrase.symbol.1 ∈ symbolsOf (phrase :: phrases) := by simp [symbolsOf]
    have word := symbols_suit.isWord first
    cases phrase with
    | byte b =>
      have whole := Phrases.phrase (.byte word) continued rest
      simpa only [phraseBits, List.flatMap_cons, Phrase.symbol, Phrase.distanceSymbol?,
        List.append_nil, List.append_assoc] using whole
    | copy length distance =>
      obtain ⟨⟨long, short⟩, near, close⟩ := fits
      have far : (classOf distanceClasses distance).1 ∈
          distancesOf (.copy length distance :: phrases) := by
        simp [distancesOf, Phrase.distanceSymbol?]
      have whole := Phrases.phrase (.copy word (classOf_length long short)
        (distances_suit.isWord far) (classOf_distance near close)) continued rest
      simpa only [phraseBits, List.flatMap_cons, Phrase.symbol, Phrase.distanceSymbol?,
        natBits_eq, List.append_assoc] using whole

theorem Recounts.fits (recounts : Recounts blank before phrases after) :
    ∀ phrase ∈ phrases, phrase.Fits := by
  induction recounts with
  | nil => exact nofun
  | cons fits _ _ ih => exact List.forall_mem_cons.mpr ⟨fits, ih⟩

theorem Recounts.symbols_lt (recounts : Recounts blank before phrases after) :
    ∀ symbol ∈ symbolsOf phrases, symbol < 286 := by
  refine List.forall_mem_cons.mpr ⟨by decide, fun symbol member => ?_⟩
  obtain ⟨phrase, among, rfl⟩ := List.mem_map.mp member
  cases phrase with
  | byte b => exact Nat.lt_trans b.toNat_lt (by decide)
  | copy length distance =>
    obtain ⟨⟨long, short⟩, -⟩ := recounts.fits _ among
    have place : (classOf lengthClasses length).1 < 29 := (classOf_length long short).place_lt
    simp only [Phrase.symbol, firstLength]
    omega

theorem Recounts.distances_lt (recounts : Recounts blank before phrases after) :
    ∀ symbol ∈ distancesOf phrases, symbol < 30 := by
  intro symbol member
  obtain ⟨phrase, among, told⟩ := List.mem_filterMap.mp member
  cases phrase with
  | byte b => cases told
  | copy length distance =>
    obtain ⟨-, near, close⟩ := recounts.fits _ among
    obtain rfl := Option.some.inj told
    exact (classOf_distance near close).place_lt

/-- A code that has words for all symbols up to a number. -/
theorem PrefixCode.Suits.of_all {lengths symbols : List Nat} {size : Nat}
    (fits : (lengths.map (share 15)).sum ≤ 2 ^ 15) (enough : size ≤ lengths.length)
    (all : ∀ length ∈ lengths, 0 < length ∧ length ≤ 15) (small : ∀ symbol ∈ symbols, symbol < size) :
    Suits lengths symbols := by
  refine ⟨fits, fun symbol member => ?_⟩
  have inside : symbol < lengths.length := Nat.lt_of_lt_of_le (small symbol member) enough
  have found : lengths[symbol]? = some lengths[symbol] := List.getElem?_eq_getElem inside
  exact ⟨_, found, all _ (List.mem_of_getElem? found)⟩

end Coded

/-- One last block is a stream. -/
theorem deflated_lastBlock {blank : Option UInt8} {kind : Nat} {content : List Bool} {data : Bytes}
    (block : Block blank 1 [] data (bitsOf 2 kind ++ content)) :
    Deflated blank (lastBlock kind content) data := by
  obtain ⟨padding, packed, few⟩ := packBits_bits (true :: natBits 2 kind ++ content)
  refine ⟨_, padding, packed, few, .last ?_⟩
  rwa [natBits_eq]

theorem deflated_encodeFixed (blank : Option UInt8) (data : Bytes) :
    Deflated blank (encodeFixed (phrases data)) data := by
  have recounts := phrases_recount blank data
  have symbols_suit : PrefixCode.Suits fixedSymbols (symbolsOf (phrases data)) :=
    .of_all (by decide +kernel) (by decide +kernel) (by decide +kernel) recounts.symbols_lt
  have distances_suit : PrefixCode.Suits fixedFar (distancesOf (phrases data)) :=
    .of_all (by decide +kernel) (by decide +kernel) (by decide +kernel) recounts.distances_lt
  rw [encodeFixed, fixedLengths_eq, fixedDistances_eq]
  exact deflated_lastBlock (.fixed (phrases_phraseBits recounts symbols_suit distances_suit))

end HedgedStore.Gzip

import HedgedStore.Proofs.Gzip.Balance
import HedgedStore.Proofs.Gzip.Encoding
import Mathlib.Data.List.DropRight

/-! A block that brings its codes with it is a stream for its data. The codes have words for all
symbols that occur, they are told run by run as they are, and so is the code in which they are
told. -/
namespace HedgedStore.Gzip

/-! Frequencies. -/

theorem size_frequencies (symbols : List Nat) (found : Array Nat) :
    (symbols.foldl (fun (found : Array Nat) s => found.setIfInBounds s (found.getD s 0 + 1))
      found).size = found.size := by
  induction symbols generalizing found with
  | nil => rfl
  | cons s symbols ih => rw [List.foldl_cons, ih, Array.size_setIfInBounds]

theorem getD_frequencies (symbols : List Nat) {found : Array Nat} {symbol : Nat}
    (inside : symbol < found.size) :
    (symbols.foldl (fun (found : Array Nat) s => found.setIfInBounds s (found.getD s 0 + 1))
      found).getD symbol 0 = found.getD symbol 0 + symbols.count symbol := by
  induction symbols generalizing found with
  | nil => rfl
  | cons s symbols ih =>
    rw [List.foldl_cons, ih (by rwa [Array.size_setIfInBounds]), Array.getD_eq_getD_getElem?,
      Array.getElem?_setIfInBounds, List.count_cons]
    by_cases same : s = symbol
    · subst same
      rw [if_pos rfl, if_pos inside, Option.getD_some, beq_self_eq_true, if_pos rfl]
      omega
    · rw [if_neg same, ← Array.getD_eq_getD_getElem?, beq_eq_false_iff_ne.mpr same]
      rfl

theorem length_frequencies (size : Nat) (symbols : List Nat) :
    (frequencies size symbols).length = size := by
  rw [frequencies, Array.length_toList, size_frequencies, Array.size_replicate]

theorem frequencies_getElem? {size symbol : Nat} (symbols : List Nat) (inside : symbol < size) :
    (frequencies size symbols)[symbol]? = some (symbols.count symbol) := by
  have known : symbol < (Array.replicate size 0).size := by rwa [Array.size_replicate]
  have counted := getD_frequencies symbols known
  rw [frequencies, Array.getElem?_toList, Array.getElem?_eq_getElem (by rwa [size_frequencies])]
  rw [Array.getD_eq_getD_getElem?, Array.getElem?_eq_getElem (by rwa [size_frequencies])] at counted
  simpa [inside] using counted

/-! Codes without the zeros at their end. -/

theorem trimZeros_append (least : Nat) (lengths : List Nat) :
    ∃ n, lengths = trimZeros least lengths ++ List.replicate n 0 := by
  have parts : lengths = lengths.rdropWhile (· == 0) ++ lengths.rtakeWhile (· == 0) :=
    List.rdropWhile_append_rtakeWhile.symm
  have kept : (lengths.reverse.dropWhile (· == 0)).length =
      (lengths.rdropWhile (· == 0)).length := List.length_reverse.symm
  have zeros : ∀ n ∈ lengths.drop (max (lengths.rdropWhile (· == 0)).length least), n = 0 := by
    intro n member
    rw [parts, List.drop_append, ← parts] at member
    rw [List.drop_eq_nil_of_le (Nat.le_max_left _ _), List.nil_append] at member
    simpa using List.mem_rtakeWhile_imp (List.mem_of_mem_drop member)
  refine ⟨(lengths.drop (max (lengths.rdropWhile (· == 0)).length least)).length, ?_⟩
  rw [← List.eq_replicate_iff.mpr ⟨rfl, zeros⟩, trimZeros, kept, List.take_append_drop]

theorem le_length_trimZeros {least : Nat} {lengths : List Nat} (enough : least ≤ lengths.length) :
    least ≤ (trimZeros least lengths).length := by
  rw [trimZeros, List.length_take]
  omega

theorem length_trimZeros_le (least : Nat) (lengths : List Nat) :
    (trimZeros least lengths).length ≤ lengths.length := List.length_take_le' _ _

theorem mem_of_mem_trimZeros {least length : Nat} {lengths : List Nat}
    (member : length ∈ trimZeros least lengths) : length ∈ lengths := List.mem_of_mem_take member

theorem trimZeros_getElem? {least symbol length : Nat} {lengths : List Nat}
    (found : lengths[symbol]? = some length) (some : 0 < length) :
    (trimZeros least lengths)[symbol]? = Option.some length := by
  obtain ⟨n, parts⟩ := trimZeros_append least lengths
  rw [parts] at found
  rcases Nat.lt_or_ge symbol (trimZeros least lengths).length with inside | beyond
  · rwa [List.getElem?_append_left inside] at found
  · rw [List.getElem?_append_right beyond] at found
    have zero := List.eq_of_mem_replicate (List.mem_of_getElem? found)
    omega

theorem trimZeros_getD (least place : Nat) (lengths : List Nat) :
    (trimZeros least lengths).getD place 0 = lengths.getD place 0 := by
  obtain ⟨n, parts⟩ := trimZeros_append least lengths
  conv_rhs => rw [parts]
  rw [List.getD_eq_getElem?_getD, List.getD_eq_getElem?_getD]
  rcases Nat.lt_or_ge place (trimZeros least lengths).length with inside | beyond
  · rw [List.getElem?_append_left inside]
  · rw [List.getElem?_append_right beyond, List.getElem?_eq_none beyond, List.getElem?_replicate]
    split <;> rfl

theorem trimZeros_complete {least : Nat} {lengths : List Nat}
    (complete : PrefixCode.Complete lengths) : PrefixCode.Complete (trimZeros least lengths) := by
  obtain ⟨n, parts⟩ := trimZeros_append least lengths
  rw [parts, PrefixCode.Complete, List.map_append, List.sum_append, List.map_replicate] at complete
  have nothing : PrefixCode.share 15 0 = 0 := rfl
  simpa only [PrefixCode.Complete, nothing, List.sum_replicate, smul_zero, Nat.add_zero] using complete

/-! Codes for the symbols that occur. -/

theorem fitting_frequencies (limit size : Nat) (symbols : List Nat) (two : 2 ≤ size)
    (few : size ≤ 2 ^ limit) (short : limit ≤ 15) : Fitting limit (frequencies size symbols) := by
  constructor
  case two => rwa [length_frequencies]
  case few => rwa [length_frequencies]
  case short => exact short

theorem suits_balancedLengths (limit size : Nat) {symbols : List Nat} (two : 2 ≤ size)
    (few : size ≤ 2 ^ limit) (short : limit ≤ 15) (small : ∀ symbol ∈ symbols, symbol < size) :
    PrefixCode.Suits (balancedLengths limit (frequencies size symbols)) symbols := by
  have fitting := fitting_frequencies limit size symbols two few short
  refine ⟨Nat.le_of_eq (balancedLengths_complete fitting), fun symbol member => ?_⟩
  have occurs : symbols.count symbol ≠ 0 := Nat.ne_of_gt (List.count_pos_iff.mpr member)
  obtain ⟨length, found, some⟩ := balancedLengths_pos fitting
    (frequencies_getElem? symbols (small symbol member)) occurs
  exact ⟨length, found, some,
    (balancedLengths_le length (List.mem_of_getElem? found)).trans short⟩

section Made

variable {least size : Nat} {symbols : List Nat}

theorem length_tailoredLengths (enough : least ≤ size) :
    least ≤ (tailoredLengths least size symbols).length ∧
      (tailoredLengths least size symbols).length ≤ size := by
  have length : (balancedLengths longestWord (frequencies size symbols)).length = size := by
    rw [length_balancedLengths, length_frequencies]
  exact ⟨le_length_trimZeros (by rwa [length]), (length_trimZeros_le _ _).trans_eq length⟩

theorem tailoredLengths_le :
    ∀ length ∈ tailoredLengths least size symbols, length ≤ longestWord := fun length member =>
  balancedLengths_le length (mem_of_mem_trimZeros member)

theorem tailoredLengths_complete (two : 2 ≤ size) (few : size ≤ 2 ^ longestWord) :
    PrefixCode.Complete (tailoredLengths least size symbols) :=
  trimZeros_complete
    (balancedLengths_complete (fitting_frequencies _ size symbols two few (by decide)))

theorem suits_tailoredLengths (two : 2 ≤ size) (few : size ≤ 2 ^ longestWord)
    (small : ∀ symbol ∈ symbols, symbol < size) :
    PrefixCode.Suits (tailoredLengths least size symbols) symbols := by
  refine ⟨Nat.le_of_eq (tailoredLengths_complete two few), fun symbol member => ?_⟩
  obtain ⟨length, found, some, short⟩ :=
    (suits_balancedLengths longestWord size two few (by decide) small).has symbol member
  exact ⟨length, trimZeros_getElem? found some, some, short⟩

end Made

/-! What symbols tell about code lengths. -/

theorem valueOf_natBits {width n : Nat} (small : n < 2 ^ width) : valueOf (natBits width n) = n := by
  rw [← ofBits_eq, ofBits_natBits, Nat.mod_eq_of_lt small]

section Further

variable {before : List Nat} {count : Nat}

theorem further_again {last : Nat} (known : before.getLast? = some last) (least : 3 ≤ count)
    (most : count ≤ 6) : Further before 16 (natBits 2 (count - 3)) (List.replicate count last) := by
  have told := Further.again known (natBits_length 2 (count - 3))
  rwa [valueOf_natBits (by omega), Nat.add_sub_cancel' least] at told

theorem further_zeros (least : 3 ≤ count) (most : count ≤ 10) :
    Further before 17 (natBits 3 (count - 3)) (List.replicate count 0) := by
  have told : Further before 17 _ _ := .zeros (natBits_length 3 (count - 3))
  rwa [valueOf_natBits (by omega), Nat.add_sub_cancel' least] at told

theorem further_manyZeros (least : 11 ≤ count) (most : count ≤ 138) :
    Further before 18 (natBits 7 (count - 11)) (List.replicate count 0) := by
  have told : Further before 18 _ _ := .manyZeros (natBits_length 7 (count - 11))
  rwa [valueOf_natBits (by omega), Nat.add_sub_cancel' least] at told

end Further

/-- Symbols with the bits of their offsets, and the code lengths that they tell after others. -/
inductive Tells : List Nat → List (Nat × List Bool) → List Nat → Prop where
  | nil {lengths : List Nat} : Tells lengths [] lengths
  | cons {before new lengths : List Nat} {symbol : Nat} {offset : List Bool}
      {more : List (Nat × List Bool)} (told : Further before symbol offset new)
      (onward : Tells (before ++ new) more lengths) :
      Tells before ((symbol, offset) :: more) lengths

namespace Tells

variable {before between after : List Nat} {front back : List (Nat × List Bool)}

theorem append (first : Tells before front between) (second : Tells between back after) :
    Tells before (front ++ back) after := by
  induction first with
  | nil => exact second
  | cons told _ ih => exact .cons told (ih second)

theorem single {new : List Nat} {symbol : Nat} {offset : List Bool}
    (told : Further before symbol offset new) : Tells before [(symbol, offset)] (before ++ new) :=
  .cons told .nil

/-- One symbol many times tells so many times the same. -/
theorem replicate (before : List Nat) (value count : Nat) {symbol : Nat} {offset : List Bool}
    (each : ∀ m, Further (before ++ List.replicate m value) symbol offset
      (List.replicate count value)) (times : Nat) :
    Tells before (List.replicate times (symbol, offset))
      (before ++ List.replicate (times * count) value) := by
  induction times with
  | zero => simpa using Tells.nil
  | succ times ih =>
    rw [List.replicate_succ', Nat.succ_mul, List.replicate_add, ← List.append_assoc]
    exact ih.append (single (each _))

/-- Symbols that tell themselves. -/
theorem lengths {length : Nat} (small : length < 16) (count : Nat) :
    Tells before (List.replicate count (length, [])) (before ++ List.replicate count length) := by
  have told := replicate before length 1 (fun _ => .length small) count
  rwa [Nat.mul_one] at told

theorem zeros (before : List Nat) (count : Nat) :
    Tells before (zeroSymbols count) (before ++ List.replicate count 0) := by
  have most : count % 138 < 138 := Nat.mod_lt _ (by decide)
  have full := replicate before 0 138 (fun _ => further_manyZeros (by decide) (by decide))
    (count / 138)
  have whole : count = count / 138 * 138 + count % 138 := (Nat.div_add_mod' count 138).symm
  conv_rhs => rw [whole, List.replicate_add, ← List.append_assoc]
  refine full.append ?_
  split
  · exact lengths (by decide) _
  · split
    · exact single (further_zeros (by omega) (by omega))
    · exact single (further_manyZeros (by omega) (by omega))

theorem again {length : Nat} (known : before.getLast? = some length) (small : length < 16)
    (count : Nat) :
    Tells before (againSymbols length count) (before ++ List.replicate count length) := by
  have most : count % 6 < 6 := Nat.mod_lt _ (by decide)
  have still (m : Nat) : (before ++ List.replicate m length).getLast? = some length := by
    rw [List.getLast?_append, List.getLast?_replicate]
    split
    · exact known
    · rfl
  have full := replicate before length 6
    (fun m => further_again (still m) (by decide) (by decide)) (count / 6)
  have whole : count = count / 6 * 6 + count % 6 := (Nat.div_add_mod' count 6).symm
  conv_rhs => rw [whole, List.replicate_add, ← List.append_assoc]
  refine full.append ?_
  split
  · exact lengths small _
  · exact single (further_again (still _) (by omega) (by omega))

/-- A run is told by a length and that it comes again. -/
theorem run (before : List Nat) {length count : Nat} (some : 0 < count) (small : length < 16) :
    Tells before (if length == 0 then zeroSymbols count
      else (length, []) :: againSymbols length (count - 1))
      (before ++ List.replicate count length) := by
  split
  · rename_i zero
    rw [eq_of_beq zero]
    exact zeros before count
  · obtain ⟨more, rfl⟩ : ∃ more, count = more + 1 := ⟨count - 1, by omega⟩
    have first : (before ++ [length]).getLast? = Option.some length := List.getLast?_concat
    have rest := again first small more
    rw [List.append_assoc, List.singleton_append, ← List.replicate_succ] at rest
    exact .cons (.length small) rest

end Tells

theorem flatMap_runs (lengths : List Nat) :
    (runs lengths).flatMap (fun run => List.replicate run.2 run.1) = lengths := by
  induction lengths with
  | nil => rfl
  | cons n lengths ih =>
    rw [runs]
    split
    · rename_i none
      rw [none] at ih
      rw [← ih]
      rfl
    · rename_i m count more first
      rw [first, List.flatMap_cons] at ih
      split
      · rename_i same
        obtain rfl : n = m := eq_of_beq same
        rw [List.flatMap_cons, List.replicate_succ, List.cons_append, ih]
      · rw [List.flatMap_cons, List.flatMap_cons, ih]
        rfl

theorem runs_pos (lengths : List Nat) : ∀ run ∈ runs lengths, 0 < run.2 := by
  induction lengths with
  | nil => exact nofun
  | cons n lengths ih =>
    rw [runs]
    split
    · simp
    · rename_i m count more first
      rw [first] at ih
      obtain ⟨-, rest⟩ := List.forall_mem_cons.mp ih
      split
      · exact List.forall_mem_cons.mpr ⟨Nat.succ_pos count, rest⟩
      · exact List.forall_mem_cons.mpr ⟨Nat.one_pos, ih⟩

theorem tells_lengthSymbols {lengths : List Nat} (small : ∀ length ∈ lengths, length < 16) :
    Tells [] (lengthSymbols lengths) lengths := by
  have every (found : List (Nat × Nat)) (before : List Nat)
      (good : ∀ run ∈ found, 0 < run.2 ∧ run.1 < 16) :
      Tells before (found.flatMap fun run => if run.1 == 0 then zeroSymbols run.2
        else (run.1, []) :: againSymbols run.1 (run.2 - 1))
        (before ++ found.flatMap fun run => List.replicate run.2 run.1) := by
    induction found generalizing before with
    | nil => simpa using Tells.nil
    | cons run found ih =>
      obtain ⟨⟨some, fits⟩, good⟩ := List.forall_mem_cons.mp good
      rw [List.flatMap_cons, List.flatMap_cons, ← List.append_assoc]
      exact (Tells.run before some fits).append (ih _ good)
  have told := every (runs lengths) [] fun run member => by
    have some := runs_pos lengths run member
    refine ⟨some, small _ ?_⟩
    rw [← flatMap_runs lengths, List.mem_flatMap]
    exact ⟨run, member, List.mem_replicate.mpr ⟨Nat.ne_of_gt some, rfl⟩⟩
  rwa [flatMap_runs, List.nil_append] at told

theorem Tells.symbols_lt {before after : List Nat} {told : List (Nat × List Bool)}
    (tells : Tells before told after) : ∀ symbol ∈ told.map (·.1), symbol < 19 := by
  induction tells with
  | nil => exact nofun
  | cons told _ ih =>
    refine List.forall_mem_cons.mpr ⟨?_, ih⟩
    cases told with
    | length small => exact Nat.lt_trans small (by decide)
    | again | zeros | manyZeros => simp

/-- Written in a code that has words for the symbols, they tell the lengths in it. -/
theorem Tells.lengths_words {code before after : List Nat} {told : List (Nat × List Bool)}
    (tells : Tells before told after) (suits : PrefixCode.Suits code (told.map (·.1))) :
    Lengths code before after
      (told.flatMap fun entry => (PrefixCode.words code).getD entry.1 [] ++ entry.2) := by
  induction tells with
  | nil => exact .done
  | cons told onward ih =>
    rw [List.flatMap_cons, List.append_assoc]
    have rest : PrefixCode.Suits code _ := suits.mono (List.subset_cons_self _ _)
    exact .more (suits.isWord (List.mem_cons_self ..)) told (ih rest)

/-! The codes at the start of a block. -/

theorem lengthsCode_trimZeros (lengths : List Nat) (all : lengths.length = 19) :
    lengthsCode (trimZeros 4 (lengthOrder.map fun symbol => lengths.getD symbol 0)) = lengths := by
  refine List.ext_getElem? fun symbol => ?_
  rcases Nat.lt_or_ge symbol 19 with inside | beyond
  · have known : symbol ∈ toldOrder := by
      have every : ∀ symbol < 19, symbol ∈ toldOrder := by decide
      exact every symbol inside
    have there : symbol < lengths.length := all ▸ inside
    rw [lengthsCode, List.getElem?_map, List.getElem?_range inside, Option.map_some, trimZeros_getD,
      lengthOrder_eq, List.getD_eq_getElem?_getD, List.getElem?_map,
      List.getElem?_idxOf known, Option.map_some, Option.getD_some, List.getD_eq_getElem?_getD,
      List.getElem?_eq_getElem there, Option.getD_some]
  · rw [List.getElem?_eq_none (by rwa [lengthsCode_length]),
      List.getElem?_eq_none (by rwa [all])]

/-- Two codes that a block may use. -/
structure Tellable (symbols distances : List Nat) : Prop where
  symbols_complete : PrefixCode.Complete symbols
  distances_complete : PrefixCode.Complete distances
  ends : symbols[256]? ≠ some 0
  short : ∀ length ∈ symbols ++ distances, length < 16
  symbols_fit : 257 ≤ symbols.length ∧ symbols.length ≤ 286
  distances_fit : 1 ≤ distances.length ∧ distances.length ≤ 30

theorem Tellable.codes {symbols distances : List Nat} (tellable : Tellable symbols distances) :
    ∃ triples told, Codes symbols distances triples told ∧
      codeBits symbols distances = codesHead symbols distances triples ++ told := by
  have tells := tells_lengthSymbols tellable.short
  obtain ⟨code, made⟩ : ∃ code, code = balancedLengths 7 (frequencies 19
    ((lengthSymbols (symbols ++ distances)).map (·.1))) := ⟨_, rfl⟩
  have length : code.length = 19 := by rw [made, length_balancedLengths, length_frequencies]
  have small : ∀ n ∈ code, n ≤ 7 := made ▸ balancedLengths_le
  have complete : PrefixCode.Complete code := made ▸ balancedLengths_complete
    (fitting_frequencies 7 19 _ (by decide) (by decide) (by decide))
  have suits : PrefixCode.Suits code ((lengthSymbols (symbols ++ distances)).map (·.1)) :=
    made ▸ suits_balancedLengths 7 19 (by decide) (by decide) (by decide) tells.symbols_lt
  have own := lengthsCode_trimZeros code length
  refine ⟨trimZeros 4 (lengthOrder.map fun symbol => code.getD symbol 0), _,
    ⟨⟨by rwa [own], by rw [own]; exact tells.lengths_words suits, tellable.ends,
      .inl tellable.symbols_complete, .inl tellable.distances_complete⟩, tellable.symbols_fit,
      tellable.distances_fit,
      ⟨le_length_trimZeros (by simp [lengthOrder]), length_trimZeros_le _ _⟩, ?_⟩, ?_⟩
  · intro n member
    obtain ⟨symbol, -, rfl⟩ := List.mem_map.mp (mem_of_mem_trimZeros member)
    rw [List.getD_eq_getElem?_getD]
    cases found : code[symbol]? with
    | none => decide
    | some n => exact Nat.lt_succ_of_le (small n (List.mem_of_getElem? found))
  · simp only [codeBits, codesHead, ← made, natBits_eq, funext (natBits_eq 3), List.append_assoc]

/-! The block. -/

theorem deflated_encodeTailored (blank : Option UInt8) (data : Bytes) :
    Deflated blank (encodeTailored (phrases data)) data := by
  have recounts := phrases_recount blank data
  have symbols_suit : PrefixCode.Suits (tailoredLengths 257 286 (symbolsOf (phrases data))) _ :=
    suits_tailoredLengths (by decide) (by decide) recounts.symbols_lt
  have distances_suit : PrefixCode.Suits (tailoredLengths 1 30 (distancesOf (phrases data))) _ :=
    suits_tailoredLengths (by decide) (by decide) recounts.distances_lt
  have tellable : Tellable (tailoredLengths 257 286 (symbolsOf (phrases data)))
      (tailoredLengths 1 30 (distancesOf (phrases data))) := by
    constructor
    case symbols_complete => exact tailoredLengths_complete (by decide) (by decide)
    case distances_complete => exact tailoredLengths_complete (by decide) (by decide)
    case ends =>
      obtain ⟨length, found, some, -⟩ := symbols_suit.has endOfBlock (List.mem_cons_self ..)
      rw [endOfBlock] at found
      rw [found]
      exact fun zero => Nat.ne_of_gt some (Option.some.inj zero)
    case short =>
      intro length member
      rcases List.mem_append.mp member with symbols | distances
      · exact Nat.lt_succ_of_le (tailoredLengths_le length symbols)
      · exact Nat.lt_succ_of_le (tailoredLengths_le length distances)
    case symbols_fit => exact length_tailoredLengths (by decide)
    case distances_fit => exact length_tailoredLengths (by decide)
  obtain ⟨triples, told, codes, head⟩ := tellable.codes
  have whole := Tailored.tailored codes (phrases_phraseBits recounts symbols_suit distances_suit)
  rw [← head] at whole
  exact deflated_lastBlock (.tailored whole)

end HedgedStore.Gzip

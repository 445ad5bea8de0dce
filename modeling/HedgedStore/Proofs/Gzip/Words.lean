import HedgedStore.Gzip.Inflate
import HedgedStore.Proofs.Gzip.Reading
import Mathlib.Tactic.Ring

/-! The words of a prefix code are read for what they are. The reader goes down the levels of the
code, comparing numbers; the number of a word among those of its length says the same at once.
Whether a code is complete is found level by level too, and is a matter of the shares of its
words. -/
namespace HedgedStore.Gzip

theorem getElem?_flatten {α : Type} {parts : List (List α)} {j place : Nat} {part : List α}
    (found : parts[j]? = some part) (small : place < part.length) :
    parts.flatten[((parts.take j).map List.length).sum + place]? = part[place]? := by
  induction parts generalizing j with
  | nil => cases found
  | cons first parts ih =>
    cases j with
    | zero =>
      obtain rfl : first = part := Option.some.inj found
      simpa using List.getElem?_append_left small
    | succ j =>
      rw [List.flatten_cons, List.take_succ_cons, List.map_cons, List.sum_cons, Nat.add_assoc,
        List.getElem?_append_right (Nat.le_add_right _ _), Nat.add_sub_cancel_left]
      exact ih found

namespace PrefixCode

/-! Complete codes. -/

theorem share_succ (longest length : Nat) :
    share (longest + 1) length =
      2 * share longest length + if length = longest + 1 then 1 else 0 := by
  rcases Nat.lt_trichotomy length (longest + 1) with shorter | rfl | longer
  · have apart : length ≠ longest + 1 := Nat.ne_of_lt shorter
    have fits : length ≤ longest := Nat.le_of_lt_succ shorter
    rw [if_neg apart]
    by_cases word : 0 < length
    · rw [share, share, if_pos ⟨word, Nat.le_of_lt shorter⟩, if_pos ⟨word, fits⟩,
        Nat.succ_sub fits, Nat.pow_succ']
      rfl
    · rw [share, share, if_neg (word ·.1), if_neg (word ·.1)]
  · simp [share]
  · have apart : length ≠ longest + 1 := Nat.ne_of_gt longer
    rw [share, share, if_neg apart, if_neg (by omega), if_neg (by omega)]

theorem sum_share_succ (longest : Nat) (lengths : List Nat) :
    (lengths.map (share (longest + 1))).sum =
      2 * (lengths.map (share longest)).sum + lengths.count (longest + 1) := by
  induction lengths with
  | nil => rfl
  | cons length lengths ih =>
    rw [List.map_cons, List.sum_cons, ih, share_succ, List.map_cons, List.sum_cons,
      List.count_cons]
    simp only [beq_iff_eq]
    omega

theorem weight_eq (lengths : List Nat) :
    weight lengths = (lengths.map (share longestWord)).sum := by
  have down (longest : Nat) : ((List.range longest).map fun i => lengths.count (i + 1)).foldl
      (fun total words => 2 * total + words) 0 = (lengths.map (share longest)).sum := by
    induction longest with
    | zero =>
      have none : (lengths.map (share 0)).sum = 0 :=
        List.sum_eq_zero_iff_forall_eq_nat.mpr fun n member => by
          obtain ⟨length, -, rfl⟩ := List.mem_map.mp member
          exact if_neg (by omega)
      rw [none]
      rfl
    | succ longest ih =>
      rw [List.range_succ, List.map_append, List.foldl_append, ih, sum_share_succ]
      rfl
  exact down longestWord

theorem isComplete_iff (lengths : List Nat) : isComplete lengths = true ↔ Complete lengths := by
  rw [isComplete, beq_iff_eq, weight_eq]
  rfl

theorem used_of_short {lengths : List Nat} (short : ∀ length ∈ lengths, length ≤ 1) :
    used lengths = lengths.count 1 := by
  refine List.countP_congr fun length member => ?_
  have := short length member
  simp only [bne_iff_ne, beq_iff_eq]
  omega

end PrefixCode

theorem isUsable_iff (lengths : List Nat) :
    isUsable lengths = true ↔ PrefixCode.Usable lengths := by
  rw [isUsable, Bool.or_eq_true, PrefixCode.isComplete_iff, Bool.and_eq_true, decide_eq_true_eq,
    List.all_eq_true, PrefixCode.Usable, and_comm]
  simp only [decide_eq_true_eq]
  refine or_congr_right (and_congr_right fun short => ?_)
  rw [PrefixCode.used_of_short short]

namespace PrefixCode

/-! Numbers of words, level by level. -/

/-- The number of the first word so many levels further down. -/
def firstBelow (first : Nat) (counts : List Nat) : Nat → Nat
  | 0 => first
  | depth + 1 => 2 * (firstBelow first counts depth + counts.getD depth 0)

/-- How many beginnings of the length of the first level belong to words. -/
def room : List Nat → Nat
  | [] => 0
  | words :: below => words + (room below + 1) / 2

theorem firstBelow_cons (first words : Nat) (counts : List Nat) (depth : Nat) :
    firstBelow first (words :: counts) (depth + 1) =
      firstBelow (2 * (first + words)) counts depth := by
  induction depth with
  | zero => rfl
  | succ depth ih => rw [firstBelow, ih, firstBelow, List.getD_cons_succ]

theorem le_firstBelow (first : Nat) (counts : List Nat) (depth : Nat) :
    first * 2 ^ depth ≤ firstBelow first counts depth := by
  induction depth with
  | zero => simp [firstBelow]
  | succ depth ih =>
    rw [firstBelow, Nat.pow_succ, ← Nat.mul_assoc]
    omega

/-- All words below stay within the room of the first level. -/
theorem firstBelow_add_le (first : Nat) {counts : List Nat} {depth words : Nat}
    (level : counts[depth]? = some words) :
    firstBelow first counts depth + words ≤ (first + room counts) * 2 ^ depth := by
  induction counts generalizing first depth with
  | nil => cases level
  | cons top counts ih =>
    cases depth with
    | zero =>
      obtain rfl : top = words := Option.some.inj level
      simp only [firstBelow, room, Nat.pow_zero, Nat.mul_one]
      omega
    | succ depth =>
      rw [firstBelow_cons]
      calc firstBelow (2 * (first + top)) counts depth + words
          ≤ (2 * (first + top) + room counts) * 2 ^ depth := ih _ level
        _ ≤ (2 * (first + room (top :: counts))) * 2 ^ depth := by
            refine Nat.mul_le_mul_right _ ?_
            rw [room]
            omega
        _ = (first + room (top :: counts)) * 2 ^ (depth + 1) := by
            rw [Nat.pow_succ]
            ring

theorem stack_cons (words : Nat) (below : List Nat) :
    stack (words :: below) = ⟨words, (room below + 1) / 2⟩ :: stack below := by
  induction below generalizing words with
  | nil => rfl
  | cons next below ih =>
    rw [stack, List.foldr_cons, ← stack, ih next]
    rfl

/-! Going down the levels. -/

/-- A word that goes on from a beginning: its number is that of the first word of its length and
its place among these, and there its symbol stands. -/
def GoesOn (symbols : Array Nat) (counts : List Nat) (code first index symbol : Nat)
    (word : List Bool) : Prop :=
  ∃ depth words place, word.length = depth + 1 ∧ counts[depth]? = some words ∧ place < words ∧
    2 ^ word.length * code + ofBits word.reverse = firstBelow first counts depth + place ∧
    symbols[index + (counts.take depth).sum + place]? = some symbol

section Down

variable {symbols : Array Nat} {words : Nat} {below : List Nat} {code first index symbol : Nat}
  {b : Bool}

theorem goesOn_single (start : first ≤ 2 * code) :
    GoesOn symbols (words :: below) code first index symbol [b] ↔
      2 * code + b.toNat - first < words ∧
        symbols[index + (2 * code + b.toNat - first)]? = some symbol := by
  constructor
  · rintro ⟨depth, level, place, length, found, small, number, there⟩
    obtain rfl : depth = 0 := by simpa using length.symm
    obtain rfl : words = level := Option.some.inj found
    simp only [List.length_singleton, List.reverse_singleton, ofBits, firstBelow] at number
    have place_eq : 2 * code + b.toNat - first = place := by omega
    rw [place_eq]
    exact ⟨small, there⟩
  · rintro ⟨small, there⟩
    refine ⟨0, words, _, rfl, rfl, small, ?_, there⟩
    simp only [List.length_singleton, List.reverse_singleton, ofBits, firstBelow]
    omega

/-- A longer word goes on below from the beginning with one more bit, and that beginning is none of
the words of this level, but in its room. -/
theorem goesOn_cons (start : first ≤ 2 * code) {next : Bool} {word : List Bool} :
    GoesOn symbols (words :: below) code first index symbol (b :: next :: word) ↔
      words ≤ 2 * code + b.toNat - first ∧
        2 * code + b.toNat - first < words + (room below + 1) / 2 ∧
        GoesOn symbols below (2 * code + b.toNat) (2 * (first + words)) (index + words) symbol
          (next :: word) := by
  have number (value : Nat) :
      2 ^ (b :: next :: word).length * code + ofBits (b :: next :: word).reverse = value ↔
        2 ^ (next :: word).length * (2 * code + b.toNat) + ofBits (next :: word).reverse =
          value := by
    rw [List.reverse_cons, ofBits_append, List.length_reverse, List.length_cons, Nat.pow_succ]
    simp only [ofBits]
    ring_nf
  constructor
  · rintro ⟨depth, level, place, length, found, small, same, there⟩
    obtain ⟨depth, rfl⟩ : ∃ less, depth = less + 1 :=
      ⟨word.length, by simpa using length.symm⟩
    have shorter : (next :: word).length = depth + 1 := Nat.succ.inj length
    have found : below[depth]? = some level := found
    rw [number, firstBelow_cons] at same
    have value := ofBits_lt (next :: word).reverse
    rw [List.length_reverse, shorter, Nat.pow_succ] at value
    have least := le_firstBelow (2 * (first + words)) below depth
    have most := firstBelow_add_le (2 * (first + words)) found
    have onward := same
    rw [shorter, Nat.pow_succ] at onward
    generalize 2 ^ depth = size at value least most onward
    have above : first + words < 2 * code + b.toNat + 1 := by
      refine Nat.lt_of_mul_lt_mul_right (a := size * 2) ?_
      calc (first + words) * (size * 2) = 2 * (first + words) * size := by ring
        _ ≤ size * 2 * (2 * code + b.toNat) + ofBits (next :: word).reverse := by omega
        _ < size * 2 * (2 * code + b.toNat) + size * 2 := by omega
        _ = (2 * code + b.toNat + 1) * (size * 2) := by ring
    have within : 2 * (2 * code + b.toNat) < 2 * (first + words) + room below := by
      refine Nat.lt_of_mul_lt_mul_right (a := size) ?_
      calc 2 * (2 * code + b.toNat) * size = size * 2 * (2 * code + b.toNat) := by ring
        _ < (2 * (first + words) + room below) * size := by omega
    refine ⟨by omega, by omega, depth, level, place, shorter, found, small, same, ?_⟩
    rw [← there, List.take_succ_cons, List.sum_cons, ← Nat.add_assoc index]
  · rintro ⟨-, -, depth, level, place, length, found, small, same, there⟩
    refine ⟨depth + 1, level, place, congrArg (· + 1) length, found, small, ?_, ?_⟩
    · rw [number, firstBelow_cons, same]
    · rw [← there, List.take_succ_cons, List.sum_cons, ← Nat.add_assoc index]

theorem not_goesOn_nil {counts : List Nat} :
    ¬ GoesOn symbols counts code first index symbol [] := by
  rintro ⟨depth, _, _, length, -⟩
  cases length

end Down

theorem reads_readFrom (symbols : Array Nat) (counts : List Nat) {code first : Nat}
    (begun : first ≤ 2 * code) (index : Nat) {start limit : Nat} :
    Reads start limit (readFrom symbols (stack counts) code first index)
      (GoesOn symbols counts code first index) := by
  induction counts generalizing code first index start limit with
  | nil =>
    refine (Reads.fail .corrupt).of_iff fun symbol word => ?_
    simp [GoesOn]
  | cons words below ih =>
    rw [stack_cons]
    refine (reads_next.bind fun b _ _ => .ite
      (c := 2 * code + b.toNat - first < words)
      (F := fun symbol rest =>
        symbols[index + (2 * code + b.toNat - first)]? = some symbol ∧ rest = [])
      (fun _ => ?found) fun (beyond : ¬ 2 * code + b.toNat - first < words) => .ite
        (c := 2 * code + b.toNat - first < words + (room below + 1) / 2)
        (fun _ => ih (by dsimp only; omega) (index + words)) fun _ => .fail .corrupt).of_iff
          fun symbol word => ?same
    case found =>
      cases symbols[index + (2 * code + b.toNat - first)]? with
      | none => exact (Reads.fail .corrupt).of_iff fun symbol rest => by simp
      | some symbol => exact (Reads.pure symbol).of_iff fun other rest => by simp [eq_comm]
    case same =>
      constructor
      · rintro ⟨b, _, rest, rfl, read, rfl⟩
        rw [List.singleton_append]
        split at read
        · rename_i small
          obtain ⟨there, rfl⟩ := read
          exact (goesOn_single begun).mpr ⟨small, there⟩
        · rename_i beyond
          split at read
          · rename_i inner
            cases rest with
            | nil => exact absurd read not_goesOn_nil
            | cons next rest =>
              exact (goesOn_cons begun).mpr ⟨Nat.le_of_not_lt beyond, inner, read⟩
          · exact read.elim
      · intro goes
        obtain _ | ⟨b, _ | ⟨next, word⟩⟩ := word
        · exact absurd goes not_goesOn_nil
        · obtain ⟨small, there⟩ := (goesOn_single begun).mp goes
          refine ⟨b, [b], [], rfl, ?_, rfl⟩
          rw [if_pos small]
          exact ⟨there, rfl⟩
        · obtain ⟨beyond, inner, onward⟩ := (goesOn_cons begun).mp goes
          refine ⟨b, [b], next :: word, rfl, ?_, rfl⟩
          rw [if_neg (Nat.not_lt_of_le beyond), if_pos inner]
          exact onward

/-! The symbols in the order of their words. -/

/-- The symbols whose words have a given length, counted from a first symbol on. -/
def symbolsFrom (length : Nat) : Nat → List Nat → List Nat
  | _, [] => []
  | symbol, other :: lengths =>
    if other = length then symbol :: symbolsFrom length (symbol + 1) lengths
    else symbolsFrom length (symbol + 1) lengths

theorem symbolsOfLength_eq (lengths : List Nat) (length : Nat) :
    symbolsOfLength lengths length = symbolsFrom length 0 lengths := by
  have shifted (first : Nat) : (lengths.zipIdx first).filterMap
      (fun entry => if entry.1 == length then some entry.2 else none) =
        symbolsFrom length first lengths := by
    induction lengths generalizing first with
    | nil => rfl
    | cons other lengths ih =>
      by_cases same : other = length <;> simp [symbolsFrom, same, ← ih]
  exact shifted 0

theorem length_symbolsFrom (length first : Nat) (lengths : List Nat) :
    (symbolsFrom length first lengths).length = lengths.count length := by
  induction lengths generalizing first with
  | nil => rfl
  | cons other lengths ih =>
    by_cases same : other = length <;> simp [symbolsFrom, same, ih]

theorem getElem?_symbolsFrom {lengths : List Nat} {length first place symbol : Nat} :
    (symbolsFrom length first lengths)[place]? = some symbol ↔
      ∃ i, symbol = first + i ∧ lengths[i]? = some length ∧
        (lengths.take i).count length = place := by
  induction lengths generalizing first place with
  | nil => simp [symbolsFrom]
  | cons other lengths ih =>
    -- The first symbol apart, those of the rest count from one more.
    have rest (i place : Nat) : (symbol = first + (i + 1) ∧ lengths[i]? = some length ∧
        (lengths.take i).count length = place) ↔ (symbol = first + 1 + i ∧
          lengths[i]? = some length ∧ (lengths.take i).count length = place) := by
      rw [Nat.add_assoc, Nat.add_comm 1]
    by_cases same : other = length
    · subst same
      cases place with
      | zero =>
        simp only [symbolsFrom, if_pos, List.getElem?_cons_zero, Option.some.injEq]
        constructor
        · rintro rfl
          exact ⟨0, rfl, rfl, rfl⟩
        · rintro ⟨i, rfl, found, none⟩
          cases i with
          | zero => rfl
          | succ i => simp at none
      | succ place =>
        simp only [symbolsFrom, if_pos, List.getElem?_cons_succ, ih, ← rest]
        constructor
        · rintro ⟨i, rfl, found, count⟩
          exact ⟨i + 1, rfl, found, by rw [List.take_succ_cons, List.count_cons_self, count]⟩
        · rintro ⟨i, rfl, found, count⟩
          cases i with
          | zero => cases count
          | succ i =>
            rw [List.take_succ_cons, List.count_cons_self] at count
            exact ⟨i, rfl, found, Nat.succ.inj count⟩
    · simp only [symbolsFrom, if_neg same, ih, ← rest]
      constructor
      · rintro ⟨i, rfl, found, count⟩
        exact ⟨i + 1, rfl, found, by rw [List.take_succ_cons, List.count_cons_of_ne same, count]⟩
      · rintro ⟨i, rfl, found, count⟩
        cases i with
        | zero => exact absurd (Option.some.inj found) same
        | succ i =>
          rw [List.take_succ_cons, List.count_cons_of_ne same] at count
          exact ⟨i, rfl, found, count⟩

variable {lengths : List Nat}

theorem count_take_lt {symbol length : Nat} (found : lengths[symbol]? = some length) :
    (lengths.take symbol).count length < lengths.count length := by
  have listed : (symbolsFrom length 0 lengths)[(lengths.take symbol).count length]? = some symbol :=
    getElem?_symbolsFrom.mpr ⟨symbol, (Nat.zero_add _).symm, found, rfl⟩
  rw [← length_symbolsFrom length 0 lengths]
  exact (List.getElem?_eq_some_iff.mp listed).1

theorem counts_getElem? {depth words : Nat} :
    (counts lengths)[depth]? = some words ↔
      depth < longestWord ∧ words = lengths.count (depth + 1) := by
  rw [counts, List.getElem?_map, Option.map_eq_some_iff]
  constructor
  · rintro ⟨i, found, rfl⟩
    obtain ⟨small, rfl⟩ := List.getElem?_eq_some_iff.mp found
    rw [List.length_range] at small
    rw [List.getElem_range]
    exact ⟨small, rfl⟩
  · rintro ⟨small, rfl⟩
    exact ⟨depth, List.getElem?_range small, rfl⟩

theorem firstBelow_counts {depth : Nat} (small : depth ≤ longestWord) :
    firstBelow 0 (counts lengths) depth = firstWord lengths (depth + 1) := by
  induction depth with
  | zero => rfl
  | succ depth ih =>
    have level : (counts lengths)[depth]? = some (lengths.count (depth + 1)) :=
      counts_getElem?.mpr ⟨small, rfl⟩
    rw [firstBelow, ih (Nat.le_of_succ_le small), List.getD_eq_getElem?_getD, level,
      Option.getD_some, firstWord]

/-- The symbols with words of one length stand behind all those with shorter words. -/
theorem ofLengths_symbols {depth place symbol : Nat} (small : depth < longestWord)
    (inside : place < lengths.count (depth + 1)) :
    (ofLengths lengths).symbols[0 + ((counts lengths).take depth).sum + place]? = some symbol ↔
      lengths[symbol]? = some (depth + 1) ∧ (lengths.take symbol).count (depth + 1) = place := by
  have parts : ((List.range longestWord).map fun i => symbolsOfLength lengths (i + 1))[depth]? =
      some (symbolsFrom (depth + 1) 0 lengths) := by
    rw [List.getElem?_map, List.getElem?_range small, Option.map_some, symbolsOfLength_eq]
  have sizes : counts lengths =
      ((List.range longestWord).map fun i => symbolsOfLength lengths (i + 1)).map List.length := by
    simp [counts, symbolsOfLength_eq, length_symbolsFrom]
  rw [Nat.zero_add, ofLengths, List.getElem?_toArray, List.flatMap_def, sizes, ← List.map_take,
    getElem?_flatten parts (by rwa [length_symbolsFrom]), getElem?_symbolsFrom]
  simp

/-- A word is what the code of these lengths reads for its symbol, and it reads nothing else. -/
theorem reads_read (lengths : List Nat) {start limit : Nat} :
    Reads start limit (ofLengths lengths).read (IsWord lengths) := by
  refine (reads_readFrom _ (counts lengths) (Nat.zero_le _) 0).of_iff fun symbol word => ?_
  constructor
  · rintro ⟨depth, words, place, length, level, inside, number, there⟩
    obtain ⟨small, rfl⟩ := counts_getElem?.mp level
    obtain ⟨found, rfl⟩ := (ofLengths_symbols small inside).mp there
    rw [Nat.mul_zero, Nat.zero_add, firstBelow_counts (Nat.le_of_lt small), ofBits_eq] at number
    rw [← length] at found number
    have short : word.length ≤ longestWord := length ▸ small
    exact ⟨found, List.ne_nil_of_length_eq_add_one length, short, number⟩
  · rintro ⟨found, nonempty, short, number⟩
    obtain ⟨depth, length⟩ : ∃ depth, word.length = depth + 1 :=
      ⟨word.length - 1, (Nat.succ_pred (List.length_eq_zero_iff.not.mpr nonempty)).symm⟩
    rw [length] at found number short
    have small : depth < longestWord := short
    have inside := count_take_lt found
    refine ⟨depth, _, _, length, counts_getElem?.mpr ⟨small, rfl⟩, inside, ?_,
      (ofLengths_symbols small inside).mpr ⟨found, rfl⟩⟩
    rw [Nat.mul_zero, Nat.zero_add, firstBelow_counts (Nat.le_of_lt small), ofBits_eq, number]

end PrefixCode

end HedgedStore.Gzip

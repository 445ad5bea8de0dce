import HedgedStore.Proofs.Gzip.Phrases

/-! The codes that a block brings with it are read for what is told of them. Code lengths come in
runs, and no symbol tells nothing, so the reader stops where all of them are told and nowhere
else. -/
namespace HedgedStore.Gzip

theorem Further.nonempty {before new : List Nat} {symbol : Nat} {offset : List Bool}
    (told : Further before symbol offset new) : new ≠ [] := by
  cases told <;> simp

theorem Lengths.grows {code before lengths : List Nat} {bits : List Bool}
    (told : Lengths code before lengths bits) : before.length ≤ lengths.length := by
  induction told with
  | done => exact Nat.le_refl _
  | more _ told _ ih =>
    rw [List.length_append] at ih
    omega

/-- All lengths that are to be told are there. -/
theorem lengths_full_iff {code before lengths : List Nat} {bits : List Bool}
    (full : before.length = lengths.length) :
    Lengths code before lengths bits ↔ lengths = before ∧ bits = [] := by
  constructor
  · intro told
    cases told with
    | done => exact ⟨rfl, rfl⟩
    | more _ told onward =>
      have longer := onward.grows
      have := List.length_pos_iff.mpr told.nonempty
      rw [List.length_append] at longer
      omega
  · rintro ⟨rfl, rfl⟩
    exact .done

/-- Reads what a symbol tells, the code lengths before it given with the last one first. -/
def readFurther (lengths : List Nat) (symbol : Nat) : Reader (List Nat) := fun s =>
  if symbol < 16 then .ok ([symbol], s)
  else if symbol == 16 then do
    let (more, s) ← s.number 2
    match lengths with
    | [] => throw .corrupt
    | last :: _ => return (List.replicate (3 + more) last, s)
  else do
    let (least, bits) := if symbol == 17 then (3, 3) else (11, 7)
    let (more, s) ← s.number bits
    return (List.replicate (least + more) 0, s)

theorem readLengths_succ (code : PrefixCode) {total : Nat} (steps : Nat) {lengths : List Nat}
    (fewer : lengths.length < total) (s : BitSource) :
    readLengths code total (steps + 1) lengths s = (do
      let (symbol, s) ← code.read s
      let (new, s) ← readFurther lengths symbol s
      readLengths code total steps (new.reverse ++ lengths) s) := by
  have apart : ¬ (lengths.length == total) = true := by
    rw [beq_iff_eq]
    omega
  have fits : ¬ lengths.length > total := by omega
  rw [readLengths, if_neg apart, if_neg fits]
  congr 1
  funext read
  obtain ⟨symbol, s⟩ := read
  simp only [readFurther]
  split
  · rfl
  · split
    · cases s.number 2 with
      | error why => rfl
      | ok read =>
        cases lengths with
        | nil => rfl
        | cons last _ => simp
    · cases s.number (if symbol == 17 then (3, 3) else (11, 7)).2 with
      | error why => rfl
      | ok read => simp

theorem reads_run (width least value : Nat) {start limit : Nat} :
    Reads start limit
      (fun s => do
        let (more, s) ← s.number width
        return (List.replicate (least + more) value, s))
      fun new offset => offset.length = width ∧
        new = List.replicate (least + valueOf offset) value := by
  refine ((reads_number width).bind fun more _ _ =>
    .pure (List.replicate (least + more) value)).of_iff fun new offset => ?_
  constructor
  · rintro ⟨_, offset, _, ⟨length, rfl⟩, ⟨rfl, rfl⟩, rfl⟩
    rw [List.append_nil]
    exact ⟨length, rfl⟩
  · rintro ⟨length, rfl⟩
    exact ⟨_, offset, [], ⟨length, rfl⟩, ⟨rfl, rfl⟩, (List.append_nil offset).symm⟩

theorem reads_readFurther (lengths : List Nat) {symbol : Nat} (known : symbol < 19)
    {start limit : Nat} :
    Reads start limit (readFurther lengths symbol) fun new offset =>
      Further lengths.reverse symbol offset new := by
  by_cases small : symbol < 16
  · have read : readFurther lengths symbol = fun s => .ok ([symbol], s) :=
      funext fun s => if_pos small
    rw [read]
    refine (Reads.pure [symbol]).of_iff fun new offset => ?_
    constructor
    · rintro ⟨rfl, rfl⟩
      exact .length small
    · intro told
      cases told with
      | length => exact ⟨rfl, rfl⟩
      | _ => omega
  obtain rfl | rfl | rfl : symbol = 16 ∨ symbol = 17 ∨ symbol = 18 := by omega
  · cases lengths with
    | nil =>
      refine ((reads_number 2).bind fun _ _ _ => .fail .corrupt).of_iff fun new offset => ?_
      constructor
      · rintro ⟨_, _, _, _, impossible, _⟩
        exact impossible.elim
      · intro told
        cases told with
        | length small => omega
        | again known => cases known
    | cons last before =>
      refine (reads_run 2 3 last).of_iff fun new offset => ?_
      constructor
      · rintro ⟨two, rfl⟩
        exact .again (by simp) two
      · intro told
        cases told with
        | length small => omega
        | again known two =>
          obtain rfl := Option.some.inj ((by simp : _ = some last).symm.trans known)
          exact ⟨two, rfl⟩
  · refine (reads_run 3 3 0).of_iff fun new offset => ?_
    constructor
    · rintro ⟨three, rfl⟩
      exact .zeros three
    · intro told
      cases told with
      | length small => omega
      | zeros three => exact ⟨three, rfl⟩
  · refine (reads_run 7 11 0).of_iff fun new offset => ?_
    constructor
    · rintro ⟨seven, rfl⟩
      exact .manyZeros seven
    · intro told
      cases told with
      | length small => omega
      | manyZeros seven => exact ⟨seven, rfl⟩

theorem lengths_iff {code before lengths : List Nat} {bits : List Bool}
    (fewer : before.length < lengths.length) :
    Lengths code before lengths bits ↔ ∃ symbol word rest, PrefixCode.IsWord code symbol word ∧
      (∃ new offset more, Further before symbol offset new ∧
        Lengths code (before ++ new) lengths more ∧ rest = offset ++ more) ∧
      bits = word ++ rest := by
  constructor
  · intro told
    cases told with
    | done => omega
    | more is_word told onward => exact ⟨_, _, _, is_word, ⟨_, _, _, told, onward, rfl⟩, rfl⟩
  · rintro ⟨symbol, word, _, is_word, ⟨new, offset, more, told, onward, rfl⟩, rfl⟩
    exact .more is_word told onward

/-- All lengths are there, and nothing more is read. -/
theorem reads_readLengths_full (code : List Nat) (steps : Nat) (lengths : List Nat)
    {start limit : Nat} :
    Reads start limit (readLengths (.ofLengths code) lengths.length (steps + 1) lengths)
      fun found bits => found.length = lengths.length ∧
        Lengths code lengths.reverse found bits := by
  have read : readLengths (.ofLengths code) lengths.length (steps + 1) lengths =
      fun s => .ok (lengths.reverse, s) := by
    funext s
    rw [readLengths, if_pos (beq_self_eq_true _)]
  rw [read]
  refine (Reads.pure lengths.reverse).of_iff fun found bits => ?_
  constructor
  · rintro ⟨rfl, rfl⟩
    exact ⟨List.length_reverse, .done⟩
  · rintro ⟨length, told⟩
    exact (lengths_full_iff (by rw [List.length_reverse, length])).mp told

/-- The last run was too long. -/
theorem reads_readLengths_beyond (code : List Nat) (steps : Nat) {total : Nat} {lengths : List Nat}
    (beyond : total < lengths.length) {start limit : Nat} :
    Reads start limit (readLengths (.ofLengths code) total (steps + 1) lengths)
      fun found bits => found.length = total ∧ Lengths code lengths.reverse found bits := by
  have read : readLengths (.ofLengths code) total (steps + 1) lengths =
      fun _ => .error .corrupt := by
    funext s
    rw [readLengths, if_neg (by rw [beq_iff_eq]; omega), if_pos beyond]
  rw [read]
  refine (Reads.fail .corrupt).of_iff fun found bits => ?_
  constructor
  · exact nofun
  · rintro ⟨length, told⟩
    have := told.grows
    rw [List.length_reverse] at this
    omega

theorem reads_readLengths {code : List Nat} (few : code.length ≤ 19) {total steps : Nat}
    (lengths : List Nat) (enough : total < steps + lengths.length) {start limit : Nat} :
    Reads start limit (readLengths (.ofLengths code) total steps lengths) fun found bits =>
      found.length = total ∧ Lengths code lengths.reverse found bits := by
  induction steps generalizing lengths start limit with
  | zero =>
    refine (Reads.fail .truncated).of_iff fun found bits => ?_
    constructor
    · exact nofun
    · rintro ⟨length, told⟩
      have := told.grows
      rw [List.length_reverse] at this
      omega
  | succ steps ih =>
    rcases Nat.lt_trichotomy lengths.length total with fewer | rfl | beyond
    · simp only [funext (readLengths_succ (.ofLengths code) steps fewer)]
      have known {symbol : Nat} {word : List Bool} (is_word : PrefixCode.IsWord code symbol word) :
          symbol < 19 :=
        Nat.lt_of_lt_of_le (List.getElem?_eq_some_iff.mp is_word.length).1 few
      refine ((PrefixCode.reads_read code).bind fun symbol word is_word =>
        (reads_readFurther lengths (known is_word)).bind fun new offset told =>
          ih (new.reverse ++ lengths) ?_).of_iff fun found bits => ?_
      · have := List.length_pos_iff.mpr told.nonempty
        rw [List.length_append, List.length_reverse]
        omega
      · constructor
        · rintro ⟨symbol, word, _, is_word, ⟨new, offset, more, told, ⟨length, onward⟩, rfl⟩, rfl⟩
          rw [List.reverse_append, List.reverse_reverse] at onward
          exact ⟨length, .more is_word told onward⟩
        · rintro ⟨rfl, whole⟩
          rw [← List.length_reverse] at fewer
          obtain ⟨symbol, word, _, is_word, ⟨new, offset, more, told, onward, rfl⟩, rfl⟩ :=
            (lengths_iff fewer).mp whole
          refine ⟨symbol, word, _, is_word, ⟨new, offset, more, told, ⟨rfl, ?_⟩, rfl⟩, rfl⟩
          rwa [List.reverse_append, List.reverse_reverse]
    · exact reads_readLengths_full code steps lengths
    · exact reads_readLengths_beyond code steps beyond

theorem reads_readTriples (n : Nat) {start limit : Nat} :
    Reads start limit (readTriples n) fun triples bits =>
      triples.length = n ∧ (∀ length ∈ triples, length < 8) ∧
        bits = triples.flatMap (bitsOf 3) := by
  induction n generalizing start limit with
  | zero =>
    refine (Reads.pure []).of_iff fun triples bits => ?_
    constructor
    · rintro ⟨rfl, rfl⟩
      exact ⟨rfl, nofun, rfl⟩
    · rintro ⟨none, -, rfl⟩
      obtain rfl := List.eq_nil_of_length_eq_zero none
      exact ⟨rfl, rfl⟩
  | succ n ih =>
    refine ((reads_bits 3).bind fun length _ _ => ih.bind fun lengths _ _ =>
      .pure (length :: lengths)).of_iff fun triples bits => ?_
    constructor
    · rintro ⟨first, _, _, ⟨first_small, rfl⟩, ⟨lengths, _, _, ⟨rfl, small, rfl⟩, ⟨rfl, rfl⟩, rfl⟩,
        rfl⟩
      refine ⟨rfl, List.forall_mem_cons.mpr ⟨first_small, small⟩, ?_⟩
      rw [List.append_nil, List.flatMap_cons]
    · rintro ⟨length, small, rfl⟩
      cases triples with
      | nil => cases length
      | cons first triples =>
        obtain ⟨first_small, small⟩ := List.forall_mem_cons.mp small
        exact ⟨first, _, _, ⟨first_small, rfl⟩, ⟨triples, _, [],
          ⟨Nat.succ.inj length, small, rfl⟩, ⟨rfl, rfl⟩, (List.append_nil _).symm⟩, rfl⟩

/-! The code of the code lengths. -/

theorem lookup_zip {keys values : List Nat} {key : Nat} (member : key ∈ keys) :
    ((keys.zip values).lookup key).getD 0 = values.getD (keys.idxOf key) 0 := by
  induction keys generalizing values with
  | nil => cases member
  | cons first keys ih =>
    cases values with
    | nil => rfl
    | cons value values =>
      by_cases same : key = first
      · simp [same]
      · have rest : key ∈ keys := (List.mem_cons.mp member).resolve_left same
        have apart : (key == first) = false := beq_eq_false_iff_ne.mpr same
        rw [List.zip_cons_cons, List.lookup_cons, apart, List.idxOf_cons_ne _ (Ne.symm same),
          List.getD_cons_succ]
        exact ih rest

theorem lengthOrder_eq : lengthOrder = toldOrder := by decide

theorem lengthsCode_eq (triples : List Nat) :
    ((List.range 19).map fun symbol => ((lengthOrder.zip triples).lookup symbol).getD 0) =
      lengthsCode triples := by
  rw [lengthOrder_eq]
  refine List.map_congr_left fun symbol member => lookup_zip ?_
  have all : ∀ symbol ∈ List.range 19, symbol ∈ toldOrder := by decide
  exact all symbol member

theorem lengthsCode_length (triples : List Nat) : (lengthsCode triples).length = 19 := by
  rw [lengthsCode, List.length_map, List.length_range]

/-- Without any word, every bit tells a length of zero. -/
theorem readLengths_blank {total steps : Nat} {lengths found : List Nat} {s rest : BitSource}
    (read : readLengths ⟨[⟨2, 0⟩], #[0, 0]⟩ total steps lengths s = .ok (found, rest))
    (zeros : ∀ length ∈ lengths, length = 0) : ∀ length ∈ found, length = 0 := by
  induction steps generalizing lengths s with
  | zero => cases read
  | succ steps ih =>
    rw [readLengths] at read
    split at read
    · obtain ⟨rfl, -⟩ := Prod.mk.inj (Except.ok.inj read)
      simpa using zeros
    · split at read
      · cases read
      · obtain ⟨⟨symbol, s⟩, begun, read⟩ := bind_eq_ok.mp read
        have zero : symbol = 0 := by
          obtain ⟨⟨b, left⟩, -, placed⟩ := bind_eq_ok.mp begun
          cases b <;> exact (Prod.mk.inj (Except.ok.inj placed)).1.symm
        subst zero
        exact ih read (List.forall_mem_cons.mpr ⟨rfl, zeros⟩)

theorem PrefixCode.Complete.used_ne_zero {lengths : List Nat} (complete : Complete lengths) :
    used lengths ≠ 0 := by
  intro none
  have zeros : ∀ length ∈ lengths, length = 0 := by simpa [used] using none
  have nothing : (lengths.map (share 15)).sum = 0 :=
    List.sum_eq_zero_iff_forall_eq_nat.mpr fun n member => by
      obtain ⟨length, among, rfl⟩ := List.mem_map.mp member
      rw [zeros length among]
      rfl
  rw [Complete, nothing] at complete
  exact absurd complete (by decide)

/-- Code lengths that a block may use for its symbols and for its distances. -/
def usable (codes : List Nat × List Nat) : Bool :=
  codes.1.getD endOfBlock 0 != 0 && isUsable codes.1 && isUsable codes.2

theorem usable_iff {symbols : List Nat} (ended : endOfBlock < symbols.length)
    (distances : List Nat) :
    usable (symbols, distances) = true ↔ symbols[endOfBlock]? ≠ some 0 ∧
      PrefixCode.Usable symbols ∧ PrefixCode.Usable distances := by
  rw [usable, Bool.and_eq_true, Bool.and_eq_true, isUsable_iff, isUsable_iff, and_assoc]
  have there : symbols[endOfBlock]? = some symbols[endOfBlock] := List.getElem?_eq_getElem ended
  simp [there]

/-- Reads the lengths of both codes, the code of the code lengths being told. -/
def readTold (symbols distances : Nat) (triples : List Nat) : Reader (PrefixCode × PrefixCode) :=
  fun s => do
    let code ← match lengthCode? (lengthsCode triples) with
      | some code => pure code
      | none => throw .corrupt
    let (lengths, s) ← readLengths code (symbols + distances) (symbols + distances + 1) [] s
    let codes := lengths.splitAt symbols
    if usable codes then return ((.ofLengths codes.1, .ofLengths codes.2), s)
    else throw .corrupt

theorem readCodes_eq (s : BitSource) : readCodes s = (do
    let (symbols, s) ← s.number 5
    let (distances, s) ← s.number 5
    let (triples, s) ← s.number 4
    if symbols + 257 > 286 || distances + 1 > 30 then throw .corrupt
    else do
      let (triples, s) ← readTriples (triples + 4) s
      readTold (symbols + 257) (distances + 1) triples s) := by
  simp only [readTold, ← lengthsCode_eq]
  rfl

/-- Where no length has a word, all lengths are zero, and the end of the block has no word. -/
theorem readTold_blank {most distant : Nat} {triples : List Nat}
    (blank : PrefixCode.used (lengthsCode triples) = 0) (s rest : BitSource)
    (codes : PrefixCode × PrefixCode) : readTold most distant triples s ≠ .ok (codes, rest) := by
  intro read
  have code : lengthCode? (lengthsCode triples) = some ⟨[⟨2, 0⟩], #[0, 0]⟩ :=
    if_pos (beq_iff_eq.mpr blank)
  rw [readTold, code] at read
  simp only [pure_eq_ok, ok_bind] at read
  obtain ⟨⟨lengths, s⟩, told, chosen⟩ := bind_eq_ok.mp read
  have zeros := readLengths_blank told nofun
  have unended : (lengths.take most).getD endOfBlock 0 = 0 := by
    rw [List.getD_eq_getElem?_getD]
    cases found : (lengths.take most)[endOfBlock]? with
    | none => rfl
    | some length => exact zeros _ (List.mem_of_mem_take (List.mem_of_getElem? found))
  rw [List.splitAt_eq, if_neg (by rw [usable, unended]; exact nofun)] at chosen
  cases chosen

/-- The lengths of both codes come in one list, which is cut where it should be. -/
theorem told_iff {most distant : Nat} (ended : endOfBlock < most) {triples : List Nat}
    (complete : PrefixCode.Complete (lengthsCode triples)) {codes : PrefixCode × PrefixCode}
    {bits : List Bool} :
    (∃ lengths one two, (lengths.length = most + distant ∧
        Lengths (lengthsCode triples) [].reverse lengths one) ∧
      (if usable (lengths.splitAt most) = true then
        codes = (.ofLengths (lengths.splitAt most).1, .ofLengths (lengths.splitAt most).2) ∧
          two = []
      else False) ∧ bits = one ++ two) ↔
    ∃ symbols distances, symbols.length = most ∧ distances.length = distant ∧
      Told symbols distances triples bits ∧
      codes = (.ofLengths symbols, .ofLengths distances) := by
  constructor
  · rintro ⟨lengths, bits, _, ⟨total, told⟩, chosen, rfl⟩
    rw [List.splitAt_eq] at chosen
    split at chosen
    · rename_i good
      obtain ⟨rfl, rfl⟩ := chosen
      have symbols_length : (lengths.take most).length = most := by
        rw [List.length_take]
        omega
      obtain ⟨ends, symbols_usable, distances_usable⟩ :=
        (usable_iff (by rwa [symbols_length]) _).mp good
      refine ⟨_, _, symbols_length, by rw [List.length_drop]; omega,
        ⟨complete, ?_, ends, symbols_usable, distances_usable⟩, rfl⟩
      rw [List.take_append_drop, List.append_nil]
      exact told
    · exact chosen.elim
  · rintro ⟨symbols, distances, rfl, rfl, told, rfl⟩
    refine ⟨symbols ++ distances, bits, [], ⟨List.length_append, told.lengths⟩, ?_,
      (List.append_nil bits).symm⟩
    have good := (usable_iff ended distances).mpr
      ⟨told.ends, told.symbols_usable, told.distances_usable⟩
    rw [List.splitAt_eq, List.take_left, List.drop_left, if_pos good]
    exact ⟨rfl, rfl⟩

theorem reads_readTold {most distant : Nat} (ended : endOfBlock < most) (triples : List Nat)
    {start limit : Nat} :
    Reads start limit (readTold most distant triples) fun codes bits =>
      ∃ symbols distances, symbols.length = most ∧ distances.length = distant ∧
        Told symbols distances triples bits ∧
        codes = (.ofLengths symbols, .ofLengths distances) := by
  by_cases blank : PrefixCode.used (lengthsCode triples) = 0
  · refine (Reads.never fun s codes rest => readTold_blank blank s rest codes).of_iff
      fun codes bits => ?_
    constructor
    · exact nofun
    · rintro ⟨symbols, distances, -, -, told, -⟩
      exact absurd blank told.complete.used_ne_zero
  by_cases complete : PrefixCode.isComplete (lengthsCode triples) = true
  · have code : lengthCode? (lengthsCode triples) = some (.ofLengths (lengthsCode triples)) := by
      rw [lengthCode?, if_neg (by rwa [beq_iff_eq]), if_pos complete]
    unfold readTold
    rw [code]
    simp only [pure_eq_ok, ok_bind]
    refine ((reads_readLengths (Nat.le_of_eq (lengthsCode_length triples)) [] (by simp)).bind
      fun lengths _ _ => .ite (c := usable (lengths.splitAt most) = true)
        (fun _ => .pure (PrefixCode.ofLengths (lengths.splitAt most).1,
          PrefixCode.ofLengths (lengths.splitAt most).2))
        fun _ => .fail .corrupt).of_iff fun codes bits => ?_
    exact told_iff ended ((PrefixCode.isComplete_iff _).mp complete)
  · have code : lengthCode? (lengthsCode triples) = none := by
      rw [lengthCode?, if_neg (by rwa [beq_iff_eq]), if_neg complete]
    unfold readTold
    rw [code]
    refine (Reads.fail .corrupt).of_iff fun codes bits => ?_
    constructor
    · exact nofun
    · rintro ⟨symbols, distances, -, -, told, -⟩
      exact complete ((PrefixCode.isComplete_iff _).mpr told.complete)

theorem reads_readCodes {start limit : Nat} :
    Reads start limit readCodes fun codes bits =>
      ∃ symbols distances triples told, Codes symbols distances triples told ∧
        codes = (.ofLengths symbols, .ofLengths distances) ∧
        bits = codesHead symbols distances triples ++ told := by
  have ended (more : Nat) : endOfBlock < more + 257 := by
    simp only [endOfBlock]
    omega
  rw [funext readCodes_eq]
  refine ((reads_bits 5).bind fun symbols _ _ => (reads_bits 5).bind fun distances _ _ =>
    (reads_bits 4).bind fun triples _ _ => .ite
      (c := (symbols + 257 > 286 || distances + 1 > 30) = true)
      (fun _ => .fail .corrupt) fun _ => (reads_readTriples (triples + 4)).bind
        fun triples _ _ => reads_readTold (ended symbols) triples).of_iff fun codes bits => ?_
  constructor
  · rintro ⟨most, _, _, ⟨-, rfl⟩, ⟨distant, _, _, ⟨-, rfl⟩, ⟨many, _, _, ⟨few, rfl⟩, told, rfl⟩,
      rfl⟩, rfl⟩
    split at told
    · exact told.elim
    · rename_i fit
      obtain ⟨triples, _, bits, ⟨count, small, rfl⟩,
        ⟨symbols, distances, symbols_length, distances_length, told, rfl⟩, rfl⟩ := told
      rw [Bool.or_eq_true, decide_eq_true_eq, decide_eq_true_eq] at fit
      refine ⟨symbols, distances, triples, bits,
        ⟨told, by omega, by omega, by omega, small⟩, rfl, ?_⟩
      rw [codesHead, symbols_length, distances_length, count]
      simp
  · rintro ⟨symbols, distances, triples, told, codes, rfl, rfl⟩
    obtain ⟨all, symbols_fit, distances_fit, triples_fit, small⟩ := codes
    have fit : ¬ (symbols.length - 257 + 257 > 286 || distances.length - 1 + 1 > 30) = true := by
      rw [Bool.or_eq_true, decide_eq_true_eq, decide_eq_true_eq]
      omega
    refine ⟨symbols.length - 257, _, _, ⟨by omega, rfl⟩, ⟨distances.length - 1, _, _,
      ⟨by omega, rfl⟩, ⟨triples.length - 4, _, triples.flatMap (bitsOf 3) ++ told,
        ⟨by omega, rfl⟩, ?_, rfl⟩, rfl⟩, by simp [codesHead]⟩
    rw [if_neg fit]
    exact ⟨triples, _, told, ⟨by omega, small, rfl⟩,
      ⟨symbols, distances, by omega, by omega, all, rfl⟩, rfl⟩

end HedgedStore.Gzip

import HedgedStore.Proofs.Gzip.Words

/-! The phrases of a block are read for what they spell. A copy is made byte by byte, each of them
from its distance before, so that what comes out is the one continuation that repeats itself at
that distance. -/
namespace HedgedStore.Gzip

/-! Copies. -/

section Copies

variable {blank : Option UInt8} {distance length : Nat} {out : Array UInt8} {after : Bytes}

/-- What a copy appends first is found in whatever goes on from the data so far. -/
theorem byteBack?_eq (near : 0 < distance) (kept : out.toList <+: after) :
    byteBack? blank distance out =
      if distance ≤ out.size then after[out.size - distance]? else blank := by
  unfold byteBack?
  split
  · have source : out.size - distance < out.toList.length := by
      rw [Array.length_toList]
      omega
    rw [List.prefix_iff_getElem?.mp kept _ source, ← Array.getElem?_toList,
      List.getElem?_eq_getElem source]
  · rfl

theorem continues_zero : (Phrase.copy 0 distance).Continues blank out.toList after ↔
    0 < distance ∧ out.toList = after := by
  constructor
  · rintro (_ | ⟨near, kept, grown, -⟩)
    exact ⟨near, kept.eq_of_length grown.symm⟩
  · rintro ⟨near, rfl⟩
    refine .copy near List.prefix_rfl rfl fun i beyond inside => ?_
    exact absurd (Nat.lt_of_le_of_lt beyond inside) (Nat.lt_irrefl _)

/-- A copy is its first byte and a copy of the rest. -/
theorem continues_succ : (Phrase.copy (length + 1) distance).Continues blank out.toList after ↔
    ∃ b, byteBack? blank distance out = some b ∧
      (Phrase.copy length distance).Continues blank (out.push b).toList after := by
  constructor
  · rintro (_ | ⟨near, kept, grown, copied⟩)
    have inside : out.size < after.length := by
      rw [grown, Array.length_toList]
      omega
    have first := copied out.size (by simp) inside
    rw [← byteBack?_eq near kept, List.getElem?_eq_getElem inside] at first
    refine ⟨after[out.size], first.symm, .copy near ?_ ?_ fun i beyond => copied i ?_⟩
    · obtain ⟨rest, rfl⟩ := kept
      cases rest with
      | nil => simp at inside
      | cons b rest => simp
    · rw [Array.toList_push, List.length_append, List.length_singleton]
      omega
    · rw [Array.toList_push, List.length_append] at beyond
      omega
  · rintro ⟨b, first, _ | ⟨near, kept, grown, copied⟩⟩
    rw [Array.toList_push] at kept grown copied
    rw [List.length_append, List.length_singleton] at grown copied
    have kept_before : out.toList <+: after := (List.prefix_append _ _).trans kept
    have inside : out.size < after.length := by
      rw [grown, Array.length_toList]
      omega
    refine .copy near kept_before (by omega) fun i beyond within => ?_
    rcases Nat.eq_or_lt_of_le beyond with rfl | later
    · -- The byte that the first step has appended.
      have written := List.prefix_iff_getElem?.mp kept out.toList.length (by simp)
      rw [List.getElem_concat_length rfl] at written
      rw [written, Array.length_toList, ← byteBack?_eq near kept_before, first]
    · exact copied i later within

/-- A copy is made if there is such a continuation, and it is the only one. -/
theorem copyBack?_eq_some (near : 0 < distance) {made : Array UInt8} :
    copyBack? blank distance length out = some made ↔
      (Phrase.copy length distance).Continues blank out.toList made.toList := by
  induction length generalizing out with
  | zero => simp [copyBack?, continues_zero, near]
  | succ length ih =>
    rw [continues_succ, copyBack?]
    cases byteBack? blank distance out with
    | none => simp
    | some b => simp [ih]

end Copies

/-! Lengths and distances. -/

theorem reads_readClass (classes : List (Nat × Nat)) (place : Nat) {start limit : Nat} :
    Reads start limit (readClass classes place) (Offset classes place) := by
  unfold readClass Offset
  cases classes[place]? with
  | none => exact (Reads.fail .corrupt).of_iff fun value bits => by simp
  | some entry =>
    obtain ⟨base, width⟩ := entry
    refine ((reads_number width).bind fun offset _ _ => .pure (base + offset)).of_iff
      fun value bits => ?_
    constructor
    · rintro ⟨_, bits, _, ⟨rfl, rfl⟩, ⟨rfl, rfl⟩, rfl⟩
      exact ⟨base, by rw [List.append_nil], by rw [List.append_nil]⟩
    · rintro ⟨_, same, rfl⟩
      obtain ⟨rfl, rfl⟩ := Prod.mk.inj (Option.some.inj same)
      exact ⟨_, bits, [], ⟨rfl, rfl⟩, ⟨rfl, rfl⟩, (List.append_nil bits).symm⟩

/-! The tables are those of the format. -/

theorem lengthClasses_eq : lengthClasses = lengthScale := by decide

theorem distanceClasses_eq : distanceClasses = distanceScale := by decide

theorem Offset.distance_pos {place distance : Nat} {bits : List Bool}
    (told : Offset distanceScale place distance bits) : 0 < distance := by
  obtain ⟨base, found, rfl⟩ := told
  have positive : ∀ entry ∈ distanceScale, 0 < entry.1 := by decide
  have := positive _ (List.mem_of_getElem? found)
  dsimp only at this
  omega

/-! Whole blocks of phrases. -/

theorem PrefixCode.IsWord.length_pos {lengths : List Nat} {symbol : Nat} {word : List Bool}
    (is_word : IsWord lengths symbol word) : 0 < word.length :=
  List.length_pos_iff.mpr is_word.nonempty

section Reading

variable {blank : Option UInt8} {symbols distances : List Nat}

/-- A symbol below `endOfBlock` spells the byte of its number. -/
theorem Phrases.pushed {symbol : Nat} {word rest : List Bool} {out : Array UInt8} {after : Bytes}
    (is_word : PrefixCode.IsWord symbols symbol word) (small : symbol < endOfBlock)
    (told : Phrases blank symbols distances (out.push symbol.toUInt8).toList after rest) :
    Phrases blank symbols distances out.toList after (word ++ rest) := by
  have value : symbol.toUInt8.toNat = symbol := by simpa [endOfBlock] using small
  rw [Array.toList_push] at told
  exact .phrase (.byte (by rwa [value])) (.byte _) told

/-- A symbol above `endOfBlock` spells the copy that `copyBack?` makes. -/
theorem Phrases.copied {symbol length far distance : Nat}
    {word offset farWord farOffset rest : List Bool} {out made : Array UInt8} {after : Bytes}
    (is_word : PrefixCode.IsWord symbols symbol word) (large : endOfBlock < symbol)
    (length_told : Offset lengthScale (symbol - firstLength) length offset)
    (far_word : PrefixCode.IsWord distances far farWord)
    (distance_told : Offset distanceScale far distance farOffset)
    (copied : copyBack? blank distance length out = some made)
    (told : Phrases blank symbols distances made.toList after rest) :
    Phrases blank symbols distances out.toList after
      (word ++ (offset ++ (farWord ++ (farOffset ++ rest)))) := by
  have length_word : PrefixCode.IsWord symbols (257 + (symbol - firstLength)) word := by
    rwa [firstLength, Nat.add_sub_cancel' (by simp only [endOfBlock] at large; omega)]
  have continued := (copyBack?_eq_some distance_told.distance_pos).mp copied
  have whole := Phrases.phrase
    (.copy length_word length_told far_word distance_told) continued told
  simpa only [List.append_assoc] using whole

/-- What follows a symbol: phrases behind its byte, nothing behind the end of the block, or the
rest of a copy and phrases behind that. -/
def Following (blank : Option UInt8) (symbols distances : List Nat) (out after : Array UInt8)
    (symbol : Nat) (bits : List Bool) : Prop :=
  if symbol < endOfBlock then
    Phrases blank symbols distances (out.push symbol.toUInt8).toList after.toList bits
  else if (symbol == endOfBlock) = true then after = out ∧ bits = []
  else ∃ length offset rest, Offset lengthScale (symbol - firstLength) length offset ∧
    (∃ far farWord rest', PrefixCode.IsWord distances far farWord ∧
      (∃ distance farOffset rest'', Offset distanceScale far distance farOffset ∧
        (∃ made, copyBack? blank distance length out = some made ∧
          Phrases blank symbols distances made.toList after.toList rest'') ∧
        rest' = farOffset ++ rest'') ∧ rest = farWord ++ rest') ∧ bits = offset ++ rest

theorem Following.phrases {symbol : Nat} {word rest : List Bool} {out after : Array UInt8}
    (is_word : PrefixCode.IsWord symbols symbol word)
    (following : Following blank symbols distances out after symbol rest) :
    Phrases blank symbols distances out.toList after.toList (word ++ rest) := by
  unfold Following at following
  split at following
  · rename_i small
    exact .pushed is_word small following
  · split at following
    · rename_i ends
      obtain ⟨rfl, rfl⟩ := following
      obtain rfl : symbol = endOfBlock := eq_of_beq ends
      rw [List.append_nil]
      exact .ended is_word
    · rename_i large apart
      obtain ⟨length, offset, _, length_told, ⟨far, farWord, _, far_word,
        ⟨distance, farOffset, rest, distance_told, ⟨made, copied, told⟩, rfl⟩, rfl⟩, rfl⟩ :=
          following
      have larger : endOfBlock < symbol :=
        Nat.lt_of_le_of_ne (Nat.le_of_not_lt large) fun same => apart (beq_iff_eq.mpr same.symm)
      exact .copied is_word larger length_told far_word distance_told copied told

theorem Phrases.following {bits : List Bool} {out after : Array UInt8}
    (phrases : Phrases blank symbols distances out.toList after.toList bits) :
    ∃ symbol word rest, PrefixCode.IsWord symbols symbol word ∧
      Following blank symbols distances out after symbol rest ∧ bits = word ++ rest := by
  generalize content : after.toList = data at phrases
  cases phrases with
  | ended is_word =>
    obtain rfl := Array.toList_inj.mp content
    exact ⟨endOfBlock, bits, [], is_word, by simp [Following], (List.append_nil bits).symm⟩
  | @phrase _ _ between _ _ rest spelled continued onward =>
    subst content
    cases spelled with
    | @byte b _ is_word =>
      cases continued
      have small : b.toNat < endOfBlock := b.toNat_lt
      refine ⟨b.toNat, _, rest, is_word, ?_, rfl⟩
      rw [Following, if_pos small, Array.toList_push]
      simpa using onward
    | @copy length distance place far word offset farWord farOffset length_word length_told
        far_word distance_told =>
      have large : ¬ 257 + place < endOfBlock := by
        rw [endOfBlock]
        omega
      have apart : ¬ (257 + place == endOfBlock) = true := by
        simp only [endOfBlock, beq_iff_eq]
        omega
      have copied : copyBack? blank distance length out = some between.toArray :=
        (copyBack?_eq_some distance_told.distance_pos).mpr continued
      refine ⟨_, word, _, length_word, ?_, List.append_assoc _ _ _⟩
      rw [Following, if_neg large, if_neg apart, firstLength, Nat.add_sub_cancel_left]
      exact ⟨length, offset, _, length_told, ⟨far, farWord, _, far_word,
        ⟨distance, farOffset, rest, distance_told, ⟨_, copied, onward⟩, rfl⟩, rfl⟩,
        by simp only [List.append_assoc]⟩

theorem reads_readSymbols {start limit steps : Nat} (enough : limit ≤ steps) (out : Array UInt8) :
    Reads start limit (readSymbols blank (.ofLengths symbols) (.ofLengths distances) steps out)
      fun after bits => Phrases blank symbols distances out.toList after.toList bits := by
  induction steps generalizing start limit out with
  | zero =>
    intro s _ few
    omega
  | succ steps ih =>
    refine ((PrefixCode.reads_read symbols).bind fun symbol word is_word => .ite
      (c := symbol < endOfBlock)
      (fun _ => ih ?byte (out.push symbol.toUInt8)) fun _ => .ite
      (c := (symbol == endOfBlock) = true)
      (fun _ => .pure out) fun _ =>
      (reads_readClass lengthClasses (symbol - firstLength)).bind fun length offset _ =>
      (PrefixCode.reads_read distances).bind fun far farWord _ =>
      (reads_readClass distanceClasses far).bind (G := fun distance _ (after : Array UInt8) bits =>
        ∃ made, copyBack? blank distance length out = some made ∧
          Phrases blank symbols distances made.toList after.toList bits)
        fun distance farOffset _ => ?copy).of_iff fun after bits => ?same
    case byte =>
      have := is_word.length_pos
      omega
    case copy =>
      dsimp only
      cases copyBack? blank distance length out with
      | none => exact (Reads.fail .corrupt).of_iff fun after bits => by simp
      | some made =>
        have shorter := is_word.length_pos
        exact (ih (by omega) made).of_iff fun after bits => by simp
    case same =>
      rw [lengthClasses_eq, distanceClasses_eq]
      constructor
      · rintro ⟨symbol, word, rest, is_word, following, rfl⟩
        exact Following.phrases is_word following
      · exact Phrases.following

end Reading

end HedgedStore.Gzip

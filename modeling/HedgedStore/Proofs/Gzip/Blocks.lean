import HedgedStore.Proofs.Gzip.Codes

/-! Streams are read for what their blocks say. Every step of the decoder takes a bit at least, so
the number of steps that it allows itself never cuts a stream short. -/
namespace HedgedStore.Gzip

theorem readStored_eq (out : Array UInt8) (s : BitSource) : readStored out s = (do
    let (_, s) ← (.ok ((), s.align) : Except Fault (Unit × BitSource))
    let (length, s) ← s.number 16
    let (complement, s) ← s.number 16
    if length + complement != 65535 then throw .corrupt
    else do
      let (bytes, s) ← s.take length
      return (out ++ bytes, s)) := rfl

theorem reads_readStored (out : Array UInt8) {start limit : Nat} :
    Reads start limit (readStored out) fun after bits =>
      Stored start out.toList after.toList bits := by
  rw [funext (readStored_eq out)]
  refine (reads_align.bind fun _ padding padded => (reads_bits 16).bind fun length one told =>
    (reads_bits 16).bind fun complement two tells => .ite
      (c := (length + complement != 65535) = true) (fun _ => .fail .corrupt) fun _ =>
      (reads_take ?aligned length).bind fun bytes _ _ => .pure (out ++ bytes)).of_iff
        fun after bits => ?same
  case aligned =>
    rw [told.2, tells.2, length_bitsOf, length_bitsOf]
    have := padded.2
    omega
  case same =>
    constructor
    · rintro ⟨_, padding, _, ⟨few, aligned⟩, ⟨length, _, _, ⟨-, rfl⟩, ⟨complement, _, _, ⟨-, rfl⟩,
        told, rfl⟩, rfl⟩, rfl⟩
      split at told
      · exact told.elim
      · rename_i sum
        obtain ⟨chunk, _, _, ⟨rfl, rfl⟩, ⟨rfl, rfl⟩, rfl⟩ := told
        rw [bne_iff_ne, ne_eq, Decidable.not_not] at sum
        have rest : complement = 65535 - chunk.length := by omega
        rw [rest, List.append_nil, Array.toList_appendList]
        exact .stored few aligned (by omega)
    · intro content
      generalize same : after.toList = data at content
      cases content with
      | @stored padding chunk few aligned fits =>
        have sum : ¬ (chunk.length + (65535 - chunk.length) != 65535) = true := by
          rw [bne_iff_ne]
          omega
        obtain rfl : after = out ++ chunk := by
          rw [← Array.toList_inj, same, Array.toList_appendList]
        refine ⟨(), padding, _, ⟨few, aligned⟩, ⟨chunk.length, _, _, ⟨by omega, rfl⟩,
          ⟨65535 - chunk.length, _, streamOf chunk, ⟨by omega, rfl⟩, ?_, rfl⟩, rfl⟩, rfl⟩
        rw [if_neg sum]
        exact ⟨chunk, _, [], ⟨rfl, rfl⟩, ⟨rfl, rfl⟩, (List.append_nil _).symm⟩

section Streams

variable {blank : Option UInt8}

theorem reads_readTailored {start limit steps : Nat} (enough : limit ≤ steps) (out : Array UInt8) :
    Reads start limit
      (fun s => do
        let ((symbols, distances), s) ← readCodes s
        readSymbols blank symbols distances steps out s)
      fun after bits => Tailored blank out.toList after.toList bits := by
  refine (reads_readCodes.bind fun codes head known => Reads.any
    (P := fun lists : List Nat × List Nat => ∃ triples told, Codes lists.1 lists.2 triples told ∧
      codes = (.ofLengths lists.1, .ofLengths lists.2) ∧
      head = codesHead lists.1 lists.2 triples ++ told)
    (F := fun lists (after : Array UInt8) bits =>
      Phrases blank lists.1 lists.2 out.toList after.toList bits) ?_ ?_).of_iff fun after bits => ?_
  · obtain ⟨symbols, distances, triples, told, all⟩ := known
    exact ⟨(symbols, distances), triples, told, all⟩
  · rintro ⟨symbols, distances⟩ ⟨triples, told, -, rfl, rfl⟩
    exact reads_readSymbols (by omega) out
  · constructor
    · rintro ⟨_, _, bits, -, ⟨⟨symbols, distances⟩, ⟨triples, told, codes, rfl, rfl⟩, phrases⟩, rfl⟩
      exact .tailored codes phrases
    · intro content
      cases content with
      | @tailored symbols distances triples told bits codes phrases =>
        exact ⟨_, _, bits, ⟨symbols, distances, triples, told, codes, rfl, rfl⟩,
          ⟨(symbols, distances), ⟨triples, told, codes, rfl, rfl⟩, phrases⟩, rfl⟩

theorem fixedLengths_eq : fixedLengths = fixedSymbols := by decide +kernel

theorem fixedDistances_eq : fixedDistances = fixedFar := by decide

theorem reads_readBlock {start limit steps : Nat} (enough : limit ≤ steps) (out : Array UInt8) :
    Reads start limit (readBlock blank steps out) fun after bits =>
      Block blank start out.toList after.toList bits := by
  refine ((reads_bits 2).bind fun kind bits _ => .ite
    (c := (kind == 0) = true) (fun _ => reads_readStored out) fun _ => .ite
    (c := (kind == 1) = true)
    (fun _ => reads_readSymbols (by omega) out) fun _ => .ite
    (c := (kind == 2) = true) (fun _ => reads_readTailored (by omega) out) fun _ =>
      .fail .corrupt).of_iff fun after bits => ?_
  rw [fixedLengths_eq, fixedDistances_eq]
  constructor
  · rintro ⟨kind, _, bits, ⟨-, rfl⟩, content, rfl⟩
    split at content
    · rename_i zero
      obtain rfl : kind = 0 := eq_of_beq zero
      rw [length_bitsOf] at content
      exact .stored content
    · split at content
      · rename_i one
        obtain rfl : kind = 1 := eq_of_beq one
        exact .fixed content
      · split at content
        · rename_i two
          obtain rfl : kind = 2 := eq_of_beq two
          exact .tailored content
        · exact content.elim
  · intro block
    cases block with
    | stored content => exact ⟨0, bitsOf 2 0, _, ⟨by decide, rfl⟩, content, rfl⟩
    | fixed content => exact ⟨1, bitsOf 2 1, _, ⟨by decide, rfl⟩, content, rfl⟩
    | tailored content => exact ⟨2, bitsOf 2 2, _, ⟨by decide, rfl⟩, content, rfl⟩

theorem reads_readBlocks (blank : Option UInt8) {start limit least steps : Nat}
    (enough : limit ≤ least) (fits : limit ≤ steps) (out : Array UInt8) :
    Reads start limit (readBlocks blank steps least out) fun after bits =>
      Blocks blank start out.toList after.toList bits := by
  induction least generalizing start limit out with
  | zero =>
    intro s _ few
    omega
  | succ least ih =>
    refine (reads_next.bind fun last flag flagged => (reads_readBlock ?block out).bind
      fun between content _ => .ite (c := last = true) (fun _ => .pure between) fun _ =>
        ih ?least ?steps between).of_iff fun after bits => ?same
    case block | steps => omega
    case least =>
      rw [flagged, List.length_singleton]
      omega
    case same =>
      constructor
      · rintro ⟨last, _, _, rfl, ⟨between, bits, rest, block, onward, rfl⟩, rfl⟩
        cases last with
        | true =>
          obtain ⟨rfl, rfl⟩ := onward
          rw [List.append_nil]
          exact .last block
        | false =>
          rw [List.singleton_append]
          exact .more block onward
      · intro blocks
        generalize same : after.toList = data at blocks
        cases blocks with
        | last block =>
          subst same
          exact ⟨true, [true], _, rfl, ⟨after, _, [], block, ⟨rfl, rfl⟩,
            (List.append_nil _).symm⟩, rfl⟩
        | @more _ _ between _ bits rest block onward =>
          subst same
          exact ⟨false, [false], _, rfl, ⟨between.toArray, bits, rest, block, onward, rfl⟩, rfl⟩

/-- Bits that end at the boundary of a byte end where the bytes are split. -/
theorem split_at_byte {bytes rest : Bytes} {bits : List Bool}
    (content : streamOf bytes = bits ++ streamOf rest) :
    ∃ body, streamOf body = bits ∧ bytes = body ++ rest := by
  have length := congrArg List.length content
  rw [List.length_append, length_streamOf, length_streamOf] at length
  have parts := content
  rw [← List.take_append_drop (bytes.length - rest.length) bytes, streamOf_append] at parts
  obtain ⟨front, back⟩ := List.append_inj parts (by
    rw [length_streamOf, List.length_take]
    omega)
  have parted := List.take_append_drop (bytes.length - rest.length) bytes
  rw [streamOf_injective back] at parted
  exact ⟨_, front, parted.symm⟩

/-- A stream is decoded if and only if it is one, and what follows its last byte is left over. -/
theorem inflate_eq_ok {bytes data rest : Bytes} :
    inflate blank bytes = .ok (data, rest) ↔
      ∃ body, bytes = body ++ rest ∧ Deflated blank body data := by
  have start : (BitSource.ofBytes bytes).At 0 := ⟨Nat.zero_lt_succ 7, 0, rfl⟩
  have content : (BitSource.ofBytes bytes).toList = streamOf bytes :=
    flatMap_byteBits bytes
  have few : (BitSource.ofBytes bytes).toList.length < 8 * bytes.length + 1 := by
    rw [content, length_streamOf]
    exact Nat.lt_succ_self _
  have reads := reads_readBlocks blank (Nat.le_refl (8 * bytes.length + 1)) (Nat.le_refl _) #[] _
    start few
  constructor
  · intro decoded
    obtain ⟨⟨out, s⟩, read, same⟩ := bind_eq_ok.mp decoded
    obtain ⟨rfl, rfl⟩ := Prod.mk.inj (Except.ok.inj same)
    obtain ⟨bits, blocks, split, there⟩ := (reads out s).mp read
    rw [content, BitSource.toList, flatMap_byteBits, ← List.append_assoc] at split
    obtain ⟨body, body_bits, whole⟩ := split_at_byte split
    exact ⟨body, whole, bits, s.pending, body_bits, there.short, blocks⟩
  · rintro ⟨body, rfl, bits, padding, split, short, blocks⟩
    have aligned : 8 ∣ 0 + bits.length + padding.length := by
      have length := congrArg List.length split
      rw [length_streamOf, List.length_append] at length
      omega
    have read := (reads data.toArray ⟨padding, rest⟩).mpr ⟨bits, blocks, by
      rw [content, BitSource.toList, flatMap_byteBits, streamOf_append, split, List.append_assoc],
      short, aligned⟩
    rw [inflate, read]
    rfl

end Streams

end HedgedStore.Gzip

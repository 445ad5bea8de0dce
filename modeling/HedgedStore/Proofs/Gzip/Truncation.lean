import HedgedStore.Proofs.Gzip.RoundTrip

/-! A member that is cut off is never taken for a whole one. Every reader goes on with longer input
as it went on with the beginning of it, unless that beginning was too short; so whatever a reader
finds wrong with a beginning, other than its end, is wrong with the whole too. -/
namespace HedgedStore.Gzip

/-- How a reading of some input compares with one of longer input. A reading that was cut off tells
nothing; any other one comes out the same, with `R` between what is found. -/
inductive Onward {ε α : Type} (isCut : ε → Bool) (R : α → α → Prop) :
    Except ε α → Except ε α → Prop where
  | cut {why : ε} {longer : Except ε α} (short : isCut why = true) :
      Onward isCut R (.error why) longer
  | failed {why : ε} : Onward isCut R (.error why) (.error why)
  | found {a a' : α} (related : R a a') : Onward isCut R (.ok a) (.ok a')

namespace Onward

variable {ε α β : Type} {isCut : ε → Bool} {R : α → α → Prop} {S : β → β → Prop}
  {x x' : Except ε α}

/-- Readers one after another go on as they do each by itself. -/
theorem bind {f f' : α → Except ε β} (first : Onward isCut R x x')
    (second : ∀ a a', R a a' → Onward isCut S (f a) (f' a')) :
    Onward isCut S (x >>= f) (x' >>= f') := by
  cases first with
  | cut short => exact .cut short
  | failed => exact .failed
  | found related => exact second _ _ related

/-- What is decided does not depend on how much more there is to read. -/
theorem branch {p : Prop} [Decidable p] {y y' : Except ε α} (yes : p → Onward isCut R x x')
    (no : ¬ p → Onward isCut R y y') :
    Onward isCut R (if p then x else y) (if p then x' else y') := by
  split
  · rename_i holds
    exact yes holds
  · rename_i fails
    exact no fails

/-- What the beginning came to, where the longer input was found to be good. -/
theorem of_ok {a' : α} (onward : Onward isCut R x (.ok a')) :
    (∃ why, x = .error why ∧ isCut why = true) ∨ ∃ a, x = .ok a ∧ R a a' := by
  cases onward with
  | cut short => exact .inl ⟨_, rfl, short⟩
  | found related => exact .inr ⟨_, rfl, related⟩

end Onward

/-! The bits of a stream. -/

def Fault.isCut : Fault → Bool
  | .truncated => true
  | .corrupt => false

/-- The same source, with more bytes to come. -/
def BitSource.extend (s : BitSource) (more : Bytes) : BitSource := ⟨s.pending, s.bytes ++ more⟩

/-- The same value, with more bytes to come after it. -/
def Extended {α : Type} (more : Bytes) (read read' : α × BitSource) : Prop :=
  read' = (read.1, read.2.extend more)

/-- Readers of the beginning of a source and of the whole of it, one like the other. -/
abbrev Continues {α : Type} (more : Bytes) :
    Except Fault (α × BitSource) → Except Fault (α × BitSource) → Prop :=
  Onward Fault.isCut (Extended more)

section Stream

variable {α β : Type} (more : Bytes)

variable {more} in
theorem Continues.bind {x x' : Except Fault (α × BitSource)}
    {f f' : α × BitSource → Except Fault (β × BitSource)} (first : Continues more x x')
    (second : ∀ a s, Continues more (f (a, s)) (f' (a, s.extend more))) :
    Continues more (x >>= f) (x' >>= f') := by
  apply Onward.bind first
  rintro ⟨a, s⟩ _ rfl
  exact second a s

theorem continues_next (s : BitSource) : Continues more s.next (s.extend more).next := by
  obtain ⟨pending, bytes⟩ := s
  cases pending with
  | cons b pending => exact .found rfl
  | nil =>
    cases bytes with
    | nil => exact .cut rfl
    | cons byte bytes => exact .found rfl

theorem continues_number (width : Nat) (s : BitSource) :
    Continues more (s.number width) ((s.extend more).number width) := by
  induction width generalizing s with
  | zero => exact .found rfl
  | succ width ih =>
    apply (continues_next more s).bind
    intro b s
    apply (ih s).bind
    intro n s
    exact .found rfl

theorem continues_take (n : Nat) (s : BitSource) :
    Continues more (s.take n) ((s.extend more).take n) := by
  simp only [BitSource.take, BitSource.extend, beq_iff_eq, List.length_take]
  by_cases enough : n ≤ s.bytes.length
  · have longer : n ≤ (s.bytes ++ more).length :=
      enough.trans (List.length_append ▸ Nat.le_add_right _ _)
    rw [if_pos (Nat.min_eq_left enough), if_pos (Nat.min_eq_left longer),
      List.take_append_of_le_length enough, List.drop_append_of_le_length enough]
    exact .found rfl
  · rw [if_neg (by omega)]
    exact .cut rfl

theorem continues_readFrom (symbols : Array Nat) (levels : List Level) (code first index : Nat)
    (s : BitSource) :
    Continues more (PrefixCode.readFrom symbols levels code first index s)
      (PrefixCode.readFrom symbols levels code first index (s.extend more)) := by
  induction levels generalizing code first index s with
  | nil => exact .failed
  | cons level below ih =>
    apply (continues_next more s).bind
    intro b s
    apply Onward.branch
    · intro _
      cases symbols[index + (2 * code + b.toNat - first)]? with
      | none => exact .failed
      | some symbol => exact .found rfl
    · intro _
      apply Onward.branch
      · exact fun _ => ih _ _ _ s
      · exact fun _ => .failed

theorem continues_read (code : PrefixCode) (s : BitSource) :
    Continues more (code.read s) (code.read (s.extend more)) :=
  continues_readFrom more code.symbols code.levels 0 0 0 s

theorem continues_readClass (classes : List (Nat × Nat)) (place : Nat) (s : BitSource) :
    Continues more (readClass classes place s) (readClass classes place (s.extend more)) := by
  unfold readClass
  cases classes[place]? with
  | none => exact .failed
  | some entry =>
    apply (continues_number more entry.2 s).bind
    intro offset s
    exact .found rfl

/-- With more to read there may be more steps, too. -/
theorem continues_readSymbols (blank : Option UInt8) (symbols distances : PrefixCode)
    {steps steps' : Nat} (enough : steps ≤ steps') (out : Array UInt8) (s : BitSource) :
    Continues more (readSymbols blank symbols distances steps out s)
      (readSymbols blank symbols distances steps' out (s.extend more)) := by
  induction steps generalizing steps' out s with
  | zero => exact .cut rfl
  | succ steps ih =>
    obtain ⟨steps', rfl⟩ := Nat.exists_eq_add_of_lt enough
    apply (continues_read more symbols s).bind
    intro symbol s
    apply Onward.branch
    · exact fun _ => ih (by omega) _ s
    intro _
    apply Onward.branch
    · exact fun _ => .found rfl
    intro _
    apply (continues_readClass more lengthClasses (symbol - firstLength) s).bind
    intro length s
    apply (continues_read more distances s).bind
    intro place s
    apply (continues_readClass more distanceClasses place s).bind
    intro distance s
    dsimp only
    cases copyBack? blank distance length out with
    | none => exact .failed
    | some made => exact ih (by omega) made s

theorem continues_readStored (out : Array UInt8) (s : BitSource) :
    Continues more (readStored out s) (readStored out (s.extend more)) := by
  apply (continues_number more 16 s.align).bind
  intro length s
  apply (continues_number more 16 s).bind
  intro complement s
  apply Onward.branch
  · exact fun _ => .failed
  intro _
  apply (continues_take more length s).bind
  intro bytes s
  exact .found rfl

theorem continues_readLengths (code : PrefixCode) (total steps : Nat) (lengths : List Nat)
    (s : BitSource) :
    Continues more (readLengths code total steps lengths s)
      (readLengths code total steps lengths (s.extend more)) := by
  induction steps generalizing lengths s with
  | zero => exact .cut rfl
  | succ steps ih =>
    apply Onward.branch
    · exact fun _ => .found rfl
    intro _
    apply Onward.branch
    · exact fun _ => .failed
    intro _
    apply (continues_read more code s).bind
    intro symbol s
    apply Onward.branch
    · exact fun _ => ih _ s
    intro _
    apply Onward.branch
    · intro _
      apply (continues_number more 2 s).bind
      intro repeats s
      cases lengths with
      | nil => exact .failed
      | cons last before => exact ih _ s
    · intro _
      apply (continues_number more _ s).bind
      intro repeats s
      exact ih _ s

theorem continues_readTriples (n : Nat) (s : BitSource) :
    Continues more (readTriples n s) (readTriples n (s.extend more)) := by
  induction n generalizing s with
  | zero => exact .found rfl
  | succ n ih =>
    apply (continues_number more 3 s).bind
    intro length s
    apply (ih s).bind
    intro lengths s
    exact .found rfl

theorem continues_readCodes (s : BitSource) :
    Continues more (readCodes s) (readCodes (s.extend more)) := by
  apply (continues_number more 5 s).bind
  intro symbols s
  apply (continues_number more 5 s).bind
  intro distances s
  apply (continues_number more 4 s).bind
  intro triples s
  apply Onward.branch
  · exact fun _ => .failed
  intro _
  apply (continues_readTriples more (triples + 4) s).bind
  intro triples s
  dsimp only
  cases lengthCode? ((List.range 19).map fun symbol =>
    ((lengthOrder.zip triples).lookup symbol).getD 0) with
  | none => exact .failed
  | some code =>
    apply (continues_readLengths more code _ _ [] s).bind
    intro lengths s
    apply Onward.branch
    · exact fun _ => .found rfl
    · exact fun _ => .failed

theorem continues_readBlock (blank : Option UInt8) {steps steps' : Nat} (enough : steps ≤ steps')
    (out : Array UInt8) (s : BitSource) :
    Continues more (readBlock blank steps out s) (readBlock blank steps' out (s.extend more)) := by
  apply (continues_number more 2 s).bind
  intro kind s
  apply Onward.branch
  · exact fun _ => continues_readStored more out s
  intro _
  apply Onward.branch
  · exact fun _ => continues_readSymbols more blank _ _ enough out s
  intro _
  apply Onward.branch
  · intro _
    apply (continues_readCodes more s).bind
    intro codes s
    exact continues_readSymbols more blank codes.1 codes.2 enough out s
  · exact fun _ => .failed

theorem continues_readBlocks (blank : Option UInt8) {limit limit' steps steps' : Nat}
    (within : limit ≤ limit') (enough : steps ≤ steps') (out : Array UInt8) (s : BitSource) :
    Continues more (readBlocks blank limit steps out s)
      (readBlocks blank limit' steps' out (s.extend more)) := by
  induction steps generalizing steps' out s with
  | zero => exact .cut rfl
  | succ steps ih =>
    obtain ⟨steps', rfl⟩ := Nat.exists_eq_add_of_lt enough
    apply (continues_next more s).bind
    intro last s
    apply (continues_readBlock more blank within out s).bind
    intro out s
    apply Onward.branch
    · exact fun _ => .found rfl
    · exact fun _ => ih (by omega) out s

/-- A stream is decoded alike, whatever bytes come after those looked at. -/
theorem onward_inflate (blank : Option UInt8) (bytes : Bytes) :
    Onward Fault.isCut (fun found found' => found' = (found.1, found.2 ++ more))
      (inflate blank bytes) (inflate blank (bytes ++ more)) := by
  have within : 8 * bytes.length + 1 ≤ 8 * (bytes ++ more).length + 1 := by
    rw [List.length_append]
    omega
  apply Onward.bind (continues_readBlocks more blank within within #[] (.ofBytes bytes))
  rintro ⟨out, s⟩ _ rfl
  exact .found rfl

end Stream

/-! The parts of a member. -/

/-- Readers of the beginning of some bytes and of all of them that pass the same bytes. -/
abbrev PassesOn (more : Bytes) : Except MemberFault Bytes → Except MemberFault Bytes → Prop :=
  Onward MemberFault.isUnexpectedEnd fun rest rest' => rest' = rest ++ more

section Member

variable (more : Bytes)

theorem onward_takeBytes (n : Nat) (bytes : Bytes) :
    Onward MemberFault.isUnexpectedEnd (fun found found' => found' = (found.1, found.2 ++ more))
      (takeBytes n bytes) (takeBytes n (bytes ++ more)) := by
  simp only [takeBytes, beq_iff_eq, List.length_take]
  by_cases enough : n ≤ bytes.length
  · have longer : n ≤ (bytes ++ more).length :=
      enough.trans (List.length_append ▸ Nat.le_add_right _ _)
    rw [if_pos (Nat.min_eq_left enough), if_pos (Nat.min_eq_left longer),
      List.take_append_of_le_length enough, List.drop_append_of_le_length enough]
    exact .found rfl
  · rw [if_neg (by omega)]
    exact .cut rfl

/-- A text without an end is either too long already, whatever comes, or cut off. -/
theorem passesOn_text (bytes : Bytes) :
    PassesOn more (skipText bytes) (skipText (bytes ++ more)) := by
  by_cases ended : 0 ∈ bytes
  · obtain ⟨text, rest, rfl, zeroless⟩ := List.eq_append_cons_of_mem ended
    rw [List.append_assoc, List.cons_append, skipText_append zeroless, skipText_append zeroless]
    apply Onward.branch
    · exact fun _ => .found rfl
    · exact fun _ => .failed
  · by_cases long : fieldLimit < bytes.length
    · have failed := skipText_long ended long []
      rw [List.append_nil] at failed
      rw [failed, skipText_long ended long]
      exact .failed
    · rw [skipText_short ended (Nat.le_of_not_lt long)]
      exact .cut rfl

theorem passesOn_extra (bytes : Bytes) :
    PassesOn more (skipExtra bytes) (skipExtra (bytes ++ more)) := by
  apply (onward_takeBytes more 2 bytes).bind
  rintro ⟨length, bytes⟩ _ rfl
  apply (onward_takeBytes more (ofLittleEndian length) bytes).bind
  rintro ⟨extra, rest⟩ _ rfl
  exact .found rfl

theorem passesOn_check (whole bytes : Bytes) :
    PassesOn more (skipHeaderCheck whole bytes)
      (skipHeaderCheck (whole ++ more) (bytes ++ more)) := by
  have covered : (whole ++ more).take ((whole ++ more).length - (bytes ++ more).length) =
      whole.take (whole.length - bytes.length) := by
    rw [List.length_append, List.length_append, Nat.add_sub_add_right,
      List.take_append_of_le_length (Nat.sub_le _ _)]
  apply (onward_takeBytes more 2 bytes).bind
  rintro ⟨check, rest⟩ _ rfl
  dsimp only
  rw [covered]
  apply Onward.branch
  · exact fun _ => .found rfl
  · exact fun _ => .failed

theorem passesOn_field (present : Bool) {skip skip' : Bytes → Except MemberFault Bytes}
    {bytes : Bytes} (passes : PassesOn more (skip bytes) (skip' (bytes ++ more))) :
    PassesOn more (optionalField present skip bytes)
      (optionalField present skip' (bytes ++ more)) := by
  apply Onward.branch
  · exact fun _ => passes
  · exact fun _ => .found rfl

theorem passesOn_header (whole : Bytes) :
    PassesOn more (skipHeader whole) (skipHeader (whole ++ more)) := by
  apply (onward_takeBytes more 10 whole).bind
  rintro ⟨start, bytes⟩ _ rfl
  apply Onward.branch
  · exact fun _ => .failed
  intro _
  apply (passesOn_field more _ (passesOn_extra more bytes)).bind
  rintro bytes _ rfl
  apply (passesOn_field more _ (passesOn_text more bytes)).bind
  rintro bytes _ rfl
  apply (passesOn_field more _ (passesOn_text more bytes)).bind
  rintro bytes _ rfl
  apply passesOn_field more
  exact passesOn_check more whole bytes

theorem passesOn_trailer (data bytes : Bytes) :
    PassesOn more (skipTrailer data bytes) (skipTrailer data (bytes ++ more)) := by
  apply (onward_takeBytes more 8 bytes).bind
  rintro ⟨trailer, rest⟩ _ rfl
  apply Onward.branch
  · exact fun _ => .found rfl
  · exact fun _ => .failed

theorem onward_readMember (blank : Option UInt8) (bytes : Bytes) :
    Onward MemberFault.isUnexpectedEnd (fun found found' => found' = (found.1, found.2 ++ more))
      (readMember blank bytes) (readMember blank (bytes ++ more)) := by
  apply (passesOn_header more bytes).bind
  rintro body _ rfl
  have decoded := onward_inflate more blank body
  revert decoded
  generalize inflate blank body = x, inflate blank (body ++ more) = x'
  intro decoded
  cases decoded with
  | @cut why _ short =>
    cases why with
    | truncated => exact .cut rfl
    | corrupt => cases short
  | @failed why => cases why <;> exact .failed
  | @found read read' related =>
    obtain rfl := related
    apply (passesOn_trailer more read.1 read.2).bind
    rintro rest _ rfl
    exact .found rfl

end Member

/-- A beginning of a member that is not all of it is found to be cut off, wherever it is cut. -/
theorem gunzip_of_cut {data member start : Bytes} (whole : Member (some 0) data member)
    (begins : start <+: member) (proper : start ≠ member) :
    ∃ why, gunzip start = .error why ∧ why.isUnexpectedEnd = true := by
  obtain ⟨more, rfl⟩ := begins
  have onward := onward_readMember more (some 0) start
  rw [readMember_eq_ok.mpr ⟨_, whole, (List.append_nil _).symm⟩] at onward
  rcases onward.of_ok with ⟨why, failed, short⟩ | ⟨⟨found, rest⟩, -, same⟩
  · refine ⟨why, ?_, short⟩
    rw [gunzip, gunzipWith, failed]
    rfl
  · -- nothing can be left behind the member, so the beginning is all of it
    obtain ⟨-, nothing⟩ := List.append_eq_nil_iff.mp (Prod.mk.inj same).2.symm
    rw [nothing, List.append_nil] at proper
    exact absurd rfl proper

end HedgedStore.Gzip

import HedgedStore.Proofs.Gzip.Bits
import HedgedStore.Proofs.Gzip.Format
import HedgedStore.Proofs.Steps

/-! Readers that accept a form and nothing else. Such a reader takes from a source exactly the bits
of the form, wherever in a byte they start, and leaves the rest; where no beginning of the source
has the form it fails. Readers are put together just as the forms are. -/
namespace HedgedStore.Gzip

namespace BitSource

/-- A source from which so many bits were read: what is left of a byte ends at its boundary. -/
structure At (s : BitSource) (start : Nat) : Prop where
  short : s.pending.length < 8
  aligned : 8 ∣ start + s.pending.length

variable {s rest : BitSource} {start : Nat}

theorem At.ext (here : s.At start) (there : rest.At start) (same : s.toList = rest.toList) :
    s = rest := by
  obtain ⟨pending, bytes⟩ := s
  obtain ⟨pending', bytes'⟩ := rest
  have lengths : pending.length = pending'.length := by
    have := here.short
    have := here.aligned
    have := there.short
    have := there.aligned
    dsimp only at *
    omega
  obtain ⟨rfl, bits⟩ : pending = pending' ∧ bytes.flatMap byteBits = bytes'.flatMap byteBits :=
    List.append_inj same lengths
  rw [flatMap_byteBits_injective bits]

theorem next_of_toList {b : Bool} {bits : List Bool} (here : s.At start)
    (content : s.toList = b :: bits) :
    ∃ rest : BitSource, s.next = .ok (b, rest) ∧ rest.toList = bits ∧ rest.At (start + 1) := by
  obtain ⟨pending, bytes⟩ := s
  obtain ⟨short, aligned⟩ := here
  cases pending with
  | cons first pending =>
    obtain ⟨rfl, rfl⟩ := List.cons.inj content
    simp only [List.length_cons] at short aligned
    exact ⟨⟨pending, bytes⟩, rfl, rfl, by dsimp only; omega, by dsimp only; omega⟩
  | nil =>
    cases bytes with
    | nil => cases content
    | cons byte bytes =>
      have split : byteBits byte = (byte.toNat % 2 == 1) :: natBits 7 (byte.toNat / 2) := rfl
      simp only [toList, List.nil_append, List.flatMap_cons, split, List.cons_append] at content
      obtain ⟨rfl, rfl⟩ := List.cons.inj content
      have seven := natBits_length 7 (byte.toNat / 2)
      simp only [List.length_nil] at aligned
      exact ⟨⟨natBits 7 (byte.toNat / 2), bytes⟩, rfl, rfl, by dsimp only; omega,
        by dsimp only; omega⟩

theorem next_eq_ok {b : Bool} (here : s.At start) :
    s.next = .ok (b, rest) ↔ s.toList = b :: rest.toList ∧ rest.At (start + 1) := by
  constructor
  · intro read
    cases content : s.toList with
    | nil =>
      obtain ⟨none, empty⟩ := List.append_eq_nil_iff.mp content
      have bytes : s.bytes = [] := flatMap_byteBits_injective empty
      rw [next, none, bytes] at read
      cases read
    | cons first bits =>
      obtain ⟨left, found, rfl, there⟩ := next_of_toList here content
      cases read.symm.trans found
      exact ⟨rfl, there⟩
  · rintro ⟨content, there⟩
    obtain ⟨left, found, same, here⟩ := next_of_toList here content
    rw [found, here.ext there same]

/-- What is left after any bits of a source. -/
theorem At.drop {bits left : List Bool} (here : s.At start) (content : s.toList = bits ++ left) :
    ∃ rest : BitSource, rest.toList = left ∧ rest.At (start + bits.length) := by
  induction bits generalizing s start with
  | nil => exact ⟨s, content, here⟩
  | cons b bits ih =>
    obtain ⟨next, -, same, there⟩ := next_of_toList here content
    obtain ⟨rest, left, later⟩ := ih there same
    exact ⟨rest, left, by rwa [List.length_cons, Nat.add_comm bits.length, ← Nat.add_assoc]⟩

end BitSource

abbrev Reader (α : Type) := BitSource → Except Fault (α × BitSource)

/-- From a place on, and with fewer bits than a limit to come, a reader accepts a form and nothing
else. -/
def Reads {α : Type} (start limit : Nat) (reader : Reader α) (Form : α → List Bool → Prop) : Prop :=
  ∀ s : BitSource, s.At start → s.toList.length < limit → ∀ a rest,
    reader s = .ok (a, rest) ↔
      ∃ bits, Form a bits ∧ s.toList = bits ++ rest.toList ∧ rest.At (start + bits.length)

section Combine

variable {α β : Type} {start limit : Nat} {F G : α → List Bool → Prop}

theorem Reads.of_iff {reader : Reader α} (reads : Reads start limit reader F)
    (same : ∀ a bits, F a bits ↔ G a bits) : Reads start limit reader G := by
  intro s here few a rest
  simpa only [same] using reads s here few a rest

theorem Reads.pure (a : α) :
    Reads start limit (fun s => .ok (a, s)) fun found bits => found = a ∧ bits = [] := by
  intro s here _ found rest
  constructor
  · intro read
    obtain ⟨rfl, rfl⟩ := Prod.mk.inj (Except.ok.inj read)
    exact ⟨[], ⟨rfl, rfl⟩, rfl, here⟩
  · rintro ⟨bits, ⟨rfl, rfl⟩, same, there⟩
    rw [here.ext there same]

theorem Reads.never {reader : Reader α} (fails : ∀ s a rest, reader s ≠ .ok (a, rest)) :
    Reads start limit reader fun _ _ => False := by
  intro s _ _ a rest
  simp [fails s a rest]

theorem Reads.fail (why : Fault) :
    Reads start limit (fun _ => (.error why : Except Fault (α × BitSource))) fun _ _ => False :=
  .never nofun

theorem Reads.bind {F : α → List Bool → Prop} {G : α → List Bool → β → List Bool → Prop}
    {reader : Reader α} {next : α × BitSource → Except Fault (β × BitSource)}
    (first : Reads start limit reader F)
    (second : ∀ a bits, F a bits →
      Reads (start + bits.length) (limit - bits.length) (fun s => next (a, s)) (G a bits)) :
    Reads start limit (fun s => reader s >>= next) fun b bits =>
      ∃ a one two, F a one ∧ G a one b two ∧ bits = one ++ two := by
  intro s here few b rest
  constructor
  · intro read
    obtain ⟨⟨a, between⟩, begun, ended⟩ := bind_eq_ok.mp read
    obtain ⟨one, first_form, split, there⟩ := (first s here few a between).mp begun
    have fewer : between.toList.length < limit - one.length := by
      rw [split, List.length_append] at few
      omega
    obtain ⟨two, second_form, left, later⟩ :=
      (second a one first_form between there fewer b rest).mp ended
    refine ⟨one ++ two, ⟨a, one, two, first_form, second_form, rfl⟩, ?_, ?_⟩
    · rw [split, left, List.append_assoc]
    · rwa [List.length_append, ← Nat.add_assoc]
  · rintro ⟨bits, ⟨a, one, two, first_form, second_form, rfl⟩, content, later⟩
    rw [List.append_assoc] at content
    obtain ⟨between, left, there⟩ := here.drop content
    have begun : reader s = .ok (a, between) :=
      (first s here few a between).mpr ⟨one, first_form, by rw [content, left], there⟩
    have fewer : between.toList.length < limit - one.length := by
      rw [content, ← left, List.length_append] at few
      omega
    refine bind_eq_ok.mpr ⟨(a, between), begun, ?_⟩
    refine (second a one first_form between there fewer b rest).mpr ⟨two, second_form, left, ?_⟩
    rwa [List.length_append, ← Nat.add_assoc] at later

theorem Reads.ite {c : Prop} [Decidable c] {reader other : Reader α}
    (yes : c → Reads start limit reader F) (no : ¬ c → Reads start limit other G) :
    Reads start limit (fun s => if c then reader s else other s)
      fun a bits => if c then F a bits else G a bits := by
  by_cases h : c
  · simpa only [if_pos h] using yes h
  · simpa only [if_neg h] using no h

/-- One reader may accept several forms, all of which say the same. -/
theorem Reads.any {ι : Type} {P : ι → Prop} {F : ι → α → List Bool → Prop} {reader : Reader α}
    (one : ∃ i, P i) (each : ∀ i, P i → Reads start limit reader (F i)) :
    Reads start limit reader fun a bits => ∃ i, P i ∧ F i a bits := by
  intro s here few a rest
  constructor
  · intro read
    obtain ⟨i, holds⟩ := one
    obtain ⟨bits, form, left⟩ := (each i holds s here few a rest).mp read
    exact ⟨bits, ⟨i, holds, form⟩, left⟩
  · rintro ⟨bits, ⟨i, holds, form⟩, left⟩
    exact (each i holds s here few a rest).mpr ⟨bits, form, left⟩

end Combine

/-! The readers of single bits, numbers, padding and bytes. -/

theorem reads_next {start limit : Nat} :
    Reads start limit BitSource.next fun b bits => bits = [b] := by
  intro s here _ b rest
  rw [BitSource.next_eq_ok here]
  constructor
  · rintro ⟨content, there⟩
    exact ⟨[b], rfl, content, there⟩
  · rintro ⟨bits, rfl, content, there⟩
    exact ⟨content, there⟩

theorem reads_number (width : Nat) {start limit : Nat} :
    Reads start limit (BitSource.number width) fun n bits =>
      bits.length = width ∧ n = valueOf bits := by
  simp only [← ofBits_eq]
  induction width generalizing start limit with
  | zero =>
    refine (Reads.pure 0).of_iff fun n bits => ?_
    constructor
    · rintro ⟨rfl, rfl⟩
      exact ⟨rfl, rfl⟩
    · rintro ⟨empty, rfl⟩
      obtain rfl := List.eq_nil_of_length_eq_zero empty
      exact ⟨rfl, rfl⟩
  | succ width ih =>
    refine (reads_next.bind fun b _ _ => ih.bind fun n _ _ =>
      .pure (b.toNat + 2 * n)).of_iff fun n bits => ?_
    constructor
    · rintro ⟨b, _, _, rfl, ⟨high, more, _, ⟨rfl, rfl⟩, ⟨rfl, rfl⟩, rfl⟩, rfl⟩
      exact ⟨by simp, by simp [ofBits]⟩
    · rintro ⟨length, rfl⟩
      cases bits with
      | nil => cases length
      | cons b more =>
        exact ⟨b, [b], more, rfl,
          ⟨_, more, [], ⟨Nat.succ.inj length, rfl⟩, ⟨rfl, rfl⟩, (List.append_nil _).symm⟩, rfl⟩

theorem reads_bits (width : Nat) {start limit : Nat} :
    Reads start limit (BitSource.number width) fun n bits =>
      n < 2 ^ width ∧ bits = bitsOf width n := by
  refine (reads_number width).of_iff fun n bits => ?_
  rw [← ofBits_eq, ← natBits_eq]
  constructor
  · rintro ⟨rfl, rfl⟩
    exact ⟨ofBits_lt bits, (natBits_ofBits bits).symm⟩
  · rintro ⟨small, rfl⟩
    exact ⟨natBits_length width n, by rw [ofBits_natBits, Nat.mod_eq_of_lt small]⟩

theorem reads_align {start limit : Nat} :
    Reads start limit (fun s => .ok ((), s.align)) fun _ padding =>
      padding.length < 8 ∧ 8 ∣ start + padding.length := by
  intro s here _ a rest
  constructor
  · intro read
    obtain rfl := (Prod.mk.inj (Except.ok.inj read)).2
    exact ⟨s.pending, ⟨here.short, here.aligned⟩, rfl, Nat.zero_lt_succ 7, here.aligned⟩
  · rintro ⟨padding, ⟨short, aligned⟩, content, there⟩
    obtain ⟨pending, bytes⟩ := s
    have boundary : rest.pending = [] := by
      have := there.short
      have := there.aligned
      exact List.eq_nil_of_length_eq_zero (by omega)
    have lengths : pending.length = padding.length := by
      have := here.short
      have := here.aligned
      dsimp only at *
      omega
    obtain ⟨rfl, bits⟩ := List.append_inj content lengths
    rw [BitSource.toList, boundary, List.nil_append] at bits
    have same : bytes = rest.bytes := flatMap_byteBits_injective bits
    simp only [BitSource.align, same, ← boundary]

/-- From a byte boundary on. -/
theorem reads_take {start limit : Nat} (aligned : 8 ∣ start) (n : Nat) :
    Reads start limit (BitSource.take n) fun bytes bits =>
      bytes.length = n ∧ bits = streamOf bytes := by
  simp only [← flatMap_byteBits]
  intro s here _ taken rest
  have boundary : s.pending = [] := by
    have := here.short
    have := here.aligned
    exact List.eq_nil_of_length_eq_zero (by omega)
  constructor
  · intro read
    simp only [BitSource.take, beq_iff_eq] at read
    split at read
    · rename_i enough
      obtain ⟨rfl, rfl⟩ := Prod.mk.inj (Except.ok.inj read)
      refine ⟨_, ⟨enough, rfl⟩, ?_, ?_, ?_⟩
      · rw [BitSource.toList, BitSource.toList, boundary, List.nil_append, List.nil_append,
          ← List.flatMap_append, List.take_append_drop]
      · exact Nat.zero_lt_succ 7
      · rw [length_flatMap_byteBits]
        simp only [List.length_nil]
        omega
    · cases read
  · rintro ⟨bits, ⟨rfl, rfl⟩, content, there⟩
    have left : rest.pending = [] := by
      have := there.short
      have := there.aligned
      rw [length_flatMap_byteBits] at this
      exact List.eq_nil_of_length_eq_zero (by omega)
    obtain ⟨pending, bytes⟩ := rest
    obtain rfl : pending = [] := left
    rw [BitSource.toList, BitSource.toList, boundary, List.nil_append, List.nil_append,
      ← List.flatMap_append] at content
    have whole : s.bytes = taken ++ bytes := flatMap_byteBits_injective content
    simp [BitSource.take, whole]

end HedgedStore.Gzip

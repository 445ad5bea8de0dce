import HedgedStore.Text.Quoted
import Mathlib.Tactic.IntervalCases

/-! Text between quotation marks. It ends at the first quote that no backslash escapes, it holds no
control character, and from what stands there the string that was quoted is read back. -/
namespace HedgedStore.Text

/-! Hexadecimal digits. -/

theorem mem_hexDigits {n : Nat} {c : Char} (member : c ∈ hexDigits n) :
    ∃ d < 16, c = Nat.digitChar d := by
  induction n using Nat.strong_induction_on with
  | _ n ih =>
    by_cases small : n < 16
    · rw [hexDigits, Nat.toDigits_of_lt_base small, List.mem_singleton] at member
      exact ⟨n, small, member⟩
    · rw [hexDigits, Nat.toDigits_of_base_le (by decide) (Nat.le_of_not_lt small)] at member
      rcases List.mem_append.mp member with earlier | last
      · exact ih (n / 16) (by omega) earlier
      · exact ⟨n % 16, Nat.mod_lt n (by decide), List.mem_singleton.mp last⟩

theorem hexValue?_concat {cs : List Char} {n d : Nat} (read : hexValue? cs = some n)
    (digit : d < 16) : hexValue? (cs ++ [Nat.digitChar d]) = some (16 * n + d) := by
  unfold hexValue? at read ⊢
  rw [List.foldl_append, read]
  interval_cases d <;> rfl

theorem hexValue?_hexDigits (n : Nat) : hexValue? (hexDigits n) = some n := by
  induction n using Nat.strong_induction_on with
  | _ n ih =>
    by_cases small : n < 16
    · rw [hexDigits, Nat.toDigits_of_lt_base small]
      have nothing : hexValue? [] = some 0 := rfl
      simpa using hexValue?_concat nothing small
    · rw [hexDigits, Nat.toDigits_of_base_le (by decide) (Nat.le_of_not_lt small)]
      have last := hexValue?_concat (ih (n / 16) (by omega)) (Nat.mod_lt n (by decide : 0 < 16))
      rwa [Nat.div_add_mod] at last

/-! One character. -/

/-- Reads one character as it stands inside quotes. -/
def readEscaped? : List Char → Option (Char × List Char)
  | [] => none
  | '\\' :: '0' :: rest => some ('\x00', rest)
  | '\\' :: 't' :: rest => some ('\t', rest)
  | '\\' :: 'n' :: rest => some ('\n', rest)
  | '\\' :: 'r' :: rest => some ('\r', rest)
  | '\\' :: 'u' :: '\x7b' :: rest =>
    (hexValue? (rest.takeWhile (· != '\x7d'))).map fun code =>
      (Char.ofNat code, (rest.dropWhile (· != '\x7d')).drop 1)
  | '\\' :: c :: rest => some (c, rest)
  | c :: rest => some (c, rest)

theorem ne_brace_of_mem_hexDigits {n : Nat} {c : Char} (member : c ∈ hexDigits n) :
    (c != '\x7d') = true := by
  obtain ⟨d, small, rfl⟩ := mem_hexDigits member
  interval_cases d <;> decide

theorem readEscaped?_escape (c : Char) (rest : List Char) :
    readEscaped? (escape c ++ rest) = some (c, rest) := by
  unfold escape
  split_ifs with nul tab newline feed mark backslash hidden
  · simp [nul, readEscaped?]
  · simp [tab, readEscaped?]
  · simp [newline, readEscaped?]
  · simp [feed, readEscaped?]
  · simp [mark, readEscaped?]
  · simp [backslash, readEscaped?]
  · have digits : ∀ d ∈ hexDigits c.toNat, (d != '\x7d') = true :=
      fun d member => ne_brace_of_mem_hexDigits member
    simp [readEscaped?, List.takeWhile_append_of_pos digits, List.dropWhile_append_of_pos digits,
      hexValue?_hexDigits, Char.ofNat_toNat]
  · simp [readEscaped?, backslash]

theorem escape_append_inj {c d : Char} {rest rest' : List Char}
    (same : escape c ++ rest = escape d ++ rest') : c = d ∧ rest = rest' := by
  have read := congrArg readEscaped? same
  rw [readEscaped?_escape, readEscaped?_escape] at read
  exact Prod.mk.inj (Option.some.inj read)

theorem escape_ne_nil (c : Char) : escape c ≠ [] := by
  intro nothing
  have read := readEscaped?_escape c []
  rw [nothing] at read
  cases read

theorem flatMap_escape_injective : Function.Injective (List.flatMap escape) := by
  intro s t same
  induction s generalizing t with
  | nil =>
    cases t with
    | nil => rfl
    | cons d t => exact absurd (List.append_eq_nil_iff.mp same.symm).1 (escape_ne_nil d)
  | cons c s ih =>
    cases t with
    | nil => exact absurd (List.append_eq_nil_iff.mp same).1 (escape_ne_nil c)
    | cons d t =>
      obtain ⟨rfl, others⟩ := escape_append_inj same
      rw [ih others]

/-! What stands between the quotes. -/

/-- A backslash escapes the character behind it, and no quote stands here unescaped. -/
inductive Enclosed : List Char → Prop where
  | nil : Enclosed []
  | plain {c : Char} {rest : List Char} (ordinary : c ≠ '"' ∧ c ≠ '\\') (behind : Enclosed rest) :
    Enclosed (c :: rest)
  | escaped {c : Char} {rest : List Char} (behind : Enclosed rest) : Enclosed ('\\' :: c :: rest)

namespace Enclosed

theorem append_plain {cs rest : List Char} (ordinary : ∀ c ∈ cs, c ≠ '"' ∧ c ≠ '\\')
    (behind : Enclosed rest) : Enclosed (cs ++ rest) := by
  induction cs with
  | nil => exact behind
  | cons c cs ih =>
    rw [List.forall_mem_cons] at ordinary
    exact .plain ordinary.1 (ih ordinary.2)

/-- The first quote that is not escaped is found without knowing what stands before it. -/
theorem unique {inside inside' rest rest' : List Char} (enclosed : Enclosed inside)
    (enclosed' : Enclosed inside') (same : inside ++ '"' :: rest = inside' ++ '"' :: rest') :
    inside = inside' ∧ rest = rest' := by
  induction enclosed generalizing inside' with
  | nil =>
    cases enclosed' with
    | nil => exact ⟨rfl, (List.cons.inj same).2⟩
    | plain ordinary _ => exact absurd (List.cons.inj same).1.symm ordinary.1
    | escaped _ => exact absurd (List.cons.inj same).1 (by decide)
  | plain ordinary _ ih =>
    cases enclosed' with
    | nil => exact absurd (List.cons.inj same).1 ordinary.1
    | plain _ behind =>
      obtain ⟨rfl, others⟩ := List.cons.inj same
      obtain ⟨rfl, ends⟩ := ih behind others
      exact ⟨rfl, ends⟩
    | escaped _ => exact absurd (List.cons.inj same).1 ordinary.2
  | escaped _ ih =>
    cases enclosed' with
    | nil => exact absurd (List.cons.inj same).1 (by decide)
    | plain ordinary _ => exact absurd (List.cons.inj same).1.symm ordinary.2
    | escaped behind =>
      simp only [List.cons_append, List.cons.injEq, true_and] at same
      obtain ⟨rfl, others⟩ := same
      obtain ⟨rfl, ends⟩ := ih behind others
      exact ⟨rfl, ends⟩

end Enclosed

theorem escape_cases (c : Char) :
    (∃ letter ∈ ['0', 't', 'n', 'r', '"', '\\'], escape c = ['\\', letter]) ∨
    escape c = ['\\', 'u', '\x7b'] ++ hexDigits c.toNat ++ ['\x7d'] ∨
    escape c = [c] ∧ (c ≠ '"' ∧ c ≠ '\\') ∧ isUnprintable c = false := by
  unfold escape
  split_ifs with nul tab newline feed mark backslash hidden
  · exact .inl ⟨'0', by decide, rfl⟩
  · exact .inl ⟨'t', by decide, rfl⟩
  · exact .inl ⟨'n', by decide, rfl⟩
  · exact .inl ⟨'r', by decide, rfl⟩
  · exact .inl ⟨'"', by decide, rfl⟩
  · exact .inl ⟨'\\', by decide, rfl⟩
  · exact .inr (.inl rfl)
  · exact .inr (.inr ⟨rfl, ⟨mark, backslash⟩, by simpa using hidden⟩)

theorem ordinary_of_mem_hexDigits {n : Nat} {c : Char} (member : c ∈ hexDigits n) :
    c ≠ '"' ∧ c ≠ '\\' := by
  obtain ⟨d, small, rfl⟩ := mem_hexDigits member
  interval_cases d <;> decide

theorem enclosed_escape (c : Char) {rest : List Char} (behind : Enclosed rest) :
    Enclosed (escape c ++ rest) := by
  rcases escape_cases c with ⟨letter, -, word⟩ | word | ⟨word, ordinary, -⟩
  · rw [word]
    exact .escaped behind
  · have digits : Enclosed (hexDigits c.toNat ++ '\x7d' :: rest) :=
      .append_plain (fun _ member => ordinary_of_mem_hexDigits member) (.plain (by decide) behind)
    rw [word, List.append_assoc, List.append_assoc]
    exact .escaped (.plain (by decide) digits)
  · rw [word]
    exact .plain ordinary behind

theorem enclosed_flatMap_escape (s : List Char) : Enclosed (s.flatMap escape) := by
  induction s with
  | nil => exact .nil
  | cons c s ih => exact enclosed_escape c ih

/-- The two ranges of control characters. -/
def IsControl (c : Char) : Prop := c.toNat < 0x20 ∨ (0x7f ≤ c.toNat ∧ c.toNat < 0xa0)

instance : DecidablePred IsControl := fun c =>
  inferInstanceAs (Decidable (c.toNat < 0x20 ∨ (0x7f ≤ c.toNat ∧ c.toNat < 0xa0)))

theorem isUnprintable_of_isControl {c : Char} (control : IsControl c) : isUnprintable c = true := by
  unfold isUnprintable
  split_ifs with low
  · rcases control with first | second
    · exact decide_eq_true first
    · omega
  · have second : 0x7f ≤ c.toNat ∧ c.toNat ≤ 0xa0 := by
      rcases control with first | second <;> omega
    exact List.any_eq_true.mpr ⟨(0x7f, 0xa0), List.mem_cons_self, by simpa using second⟩

theorem not_isControl_of_mem_hexDigits {n : Nat} {c : Char} (member : c ∈ hexDigits n) :
    ¬ IsControl c := by
  obtain ⟨d, small, rfl⟩ := mem_hexDigits member
  interval_cases d <;> decide

theorem not_isControl_of_mem_escape {c d : Char} (member : d ∈ escape c) : ¬ IsControl d := by
  have visible : ∀ d ∈ ['\\', '0', 't', 'n', 'r', '"', 'u', '\x7b', '\x7d'], ¬ IsControl d := by
    simp only [List.forall_mem_cons, List.not_mem_nil, false_imp_iff, implies_true, and_true]
    decide
  rcases escape_cases c with ⟨letter, listed, word⟩ | word | ⟨word, -, shown⟩
  · rw [word] at member
    exact visible d (by grind)
  · rw [word, List.mem_append, List.mem_append] at member
    rcases member with (start | digit) | brace
    · exact visible d (by grind)
    · exact not_isControl_of_mem_hexDigits digit
    · exact visible d (by grind)
  · rw [word] at member
    obtain rfl := List.mem_singleton.mp member
    intro control
    cases shown.symm.trans (isUnprintable_of_isControl control)

theorem toList_quote (s : String) : (quote s).toList = '"' :: (s.toList.flatMap escape ++ ['"']) := by
  simp [quote]

theorem quote_append_inj {s t : String} {rest rest' : List Char}
    (same : (quote s).toList ++ rest = (quote t).toList ++ rest') : s = t ∧ rest = rest' := by
  rw [toList_quote, toList_quote] at same
  have behind : s.toList.flatMap escape ++ '"' :: rest = t.toList.flatMap escape ++ '"' :: rest' := by
    simpa using same
  obtain ⟨insides, ends⟩ :=
    (enclosed_flatMap_escape _).unique (enclosed_flatMap_escape _) behind
  exact ⟨String.toList_inj.mp (flatMap_escape_injective insides), ends⟩

end HedgedStore.Text

import HedgedStore.Yaml.Reading
import HedgedStore.Proofs.Steps
import Mathlib.Data.Nat.Digits.Defs
import Mathlib.Tactic.IntervalCases

/-! What scalars stand for: the numerals and the other forms of typed values, told apart from the
functions that read them, and a reading of each that succeeds on just these forms. -/
namespace HedgedStore.Yaml

/-! Numerals. -/

/-- The character is a digit of a base, its letters in either case. -/
def IsDigit (base : Nat) (c : Char) (value : Nat) : Prop :=
  value < base ∧ (c = Nat.digitChar value ∨ c = (Nat.digitChar value).toUpper)

/-- One digit or more, the first of them being the highest. -/
def IsDigits (base : Nat) (cs : List Char) (n : Nat) : Prop :=
  cs ≠ [] ∧ ∃ values, List.Forall₂ (IsDigit base) cs values ∧ Nat.ofDigits base values.reverse = n

/-- A numeral: decimal without a needless zero in front, or behind the mark of another base. -/
inductive Numeral : List Char → Nat → Prop where
  | decimal {cs : List Char} {n : Nat} (digits : IsDigits 10 cs n)
    (lead : cs.head? = some '0' → cs = ['0']) : Numeral cs n
  | hexadecimal {cs : List Char} {n : Nat} (digits : IsDigits 16 cs n) :
    Numeral ('0' :: 'x' :: cs) n
  | octal {cs : List Char} {n : Nat} (digits : IsDigits 8 cs n) : Numeral ('0' :: 'o' :: cs) n
  | binary {cs : List Char} {n : Nat} (digits : IsDigits 2 cs n) : Numeral ('0' :: 'b' :: cs) n

/-- A whole number without a minus sign: a numeral, a plus sign before it or not. -/
def IsNatural (s : String) (n : Nat) : Prop :=
  Numeral s.toList n ∨ ∃ cs, s.toList = '+' :: cs ∧ Numeral cs n

theorem digitValue?_digitChar {base value : Nat} (small : value < base) (bound : base ≤ 16) :
    digitValue? base (Nat.digitChar value) = some value ∧
      digitValue? base (Nat.digitChar value).toUpper = some value := by
  have : value < 16 := Nat.lt_of_lt_of_le small bound
  interval_cases value <;> exact ⟨if_pos small, if_pos small⟩

theorem digitChar_eq_ofNat : (∀ value < 10, Nat.digitChar value = Char.ofNat (48 + value)) ∧
    ∀ value < 6, Nat.digitChar (value + 10) = Char.ofNat (97 + value) ∧
      (Nat.digitChar (value + 10)).toUpper = Char.ofNat (65 + value) := by
  decide

theorem toNat_between {c first last : Char} (within : first ≤ c ∧ c ≤ last) :
    first.toNat ≤ c.toNat ∧ c.toNat ≤ last.toNat :=
  ⟨UInt32.le_iff_toNat_le.mp within.1, UInt32.le_iff_toNat_le.mp within.2⟩

theorem digitValue?_eq_some {base value : Nat} {c : Char} (bound : base ≤ 16) :
    digitValue? base c = some value ↔ IsDigit base c value := by
  constructor
  · intro read
    have ⟨decimals, letters⟩ := digitChar_eq_ofNat
    have placed {first n : Nat} (place : c.toNat = first + n) : c = Char.ofNat (first + n) := by
      rw [← place, Char.ofNat_toNat]
    have codes : '0'.toNat = 48 ∧ 'a'.toNat = 97 ∧ 'A'.toNat = 65 := by decide
    simp only [digitValue?, codes] at read
    -- each range of digits is told by its place among all characters
    split_ifs at read with digit small lower small upper small small <;> cases read
    · have within : '0' ≤ c ∧ c ≤ '9' := by simpa [Char.isDigit, Char.le_def] using digit
      have range : 48 ≤ c.toNat ∧ c.toNat ≤ 57 := toNat_between within
      have place : c.toNat = 48 + (c.toNat - 48) := by omega
      exact ⟨small, .inl ((placed place).trans (decimals _ (by omega)).symm)⟩
    · have within : 'a' ≤ c ∧ c ≤ 'z' := by simpa using lower
      have range : 97 ≤ c.toNat ∧ c.toNat ≤ 122 := toNat_between within
      have place : c.toNat = 97 + (c.toNat - 97) := by omega
      exact ⟨small, .inl ((placed place).trans (letters _ (by omega)).1.symm)⟩
    · have within : 'A' ≤ c ∧ c ≤ 'Z' := by simpa using upper
      have range : 65 ≤ c.toNat ∧ c.toNat ≤ 90 := toNat_between within
      have place : c.toNat = 65 + (c.toNat - 65) := by omega
      exact ⟨small, .inr ((placed place).trans (letters _ (by omega)).2.symm)⟩
    · omega
  · rintro ⟨small, rfl | rfl⟩
    · exact (digitValue?_digitChar small bound).1
    · exact (digitValue?_digitChar small bound).2

theorem foldl_digits {base n : Nat} (bound : base ≤ 16) (cs : List Char) (start : Nat) :
    cs.foldl (fun value c => value.bind fun n => (digitValue? base c).map (base * n + ·))
        (some start) = some n ↔
      ∃ values, List.Forall₂ (IsDigit base) cs values ∧
        values.foldl (fun n value => base * n + value) start = n := by
  have stays (cs : List Char) : cs.foldl
      (fun value c => value.bind fun n => (digitValue? base c).map (base * n + ·)) none = none := by
    induction cs with
    | nil => rfl
    | cons c cs ih => exact ih
  induction cs generalizing start with
  | nil => simp
  | cons c cs ih =>
    rw [List.foldl_cons, Option.bind_some]
    cases read : digitValue? base c with
    | none =>
      -- what is no digit spoils the numeral, and no digits are left to read it as
      rw [Option.map_none, stays]
      refine ⟨nofun, ?_⟩
      rintro ⟨_, _ | ⟨digit, _⟩, _⟩
      rw [← digitValue?_eq_some bound, read] at digit
      cases digit
    | some value =>
      rw [Option.map_some]
      refine (ih (base * start + value)).trans ⟨?_, ?_⟩
      · rintro ⟨values, digits, total⟩
        exact ⟨value :: values, .cons ((digitValue?_eq_some bound).mp read) digits, total⟩
      · rintro ⟨_, _ | @⟨_, value', _, values, digit, digits⟩, total⟩
        rw [← digitValue?_eq_some bound, read] at digit
        obtain rfl := Option.some.inj digit
        exact ⟨values, digits, total⟩

theorem readDigits?_eq_some {base n : Nat} {cs : List Char} (bound : base ≤ 16) :
    readDigits? base cs = some n ↔ IsDigits base cs n := by
  unfold readDigits? IsDigits
  cases cs with
  | nil => simp
  | cons c cs =>
    simp only [List.isEmpty_cons, Bool.false_eq_true, if_false, foldl_digits bound,
      Nat.ofDigits_eq_foldr, List.foldr_reverse]
    simp [add_comm]

theorem IsDigit.isDigit {c : Char} {value : Nat} (digit : IsDigit 10 c value) :
    c.isDigit = true := by
  obtain ⟨small, rfl | rfl⟩ := digit <;> interval_cases value <;> rfl

theorem IsDigits.all_isDigit {cs : List Char} {n : Nat} (digits : IsDigits 10 cs n) :
    cs.all Char.isDigit = true := by
  obtain ⟨-, values, digits, -⟩ := digits
  induction digits with
  | nil => rfl
  | cons digit _ ih => simp [digit.isDigit, ih]

/-- Where all characters are decimal digits, only a single zero can stand in front. -/
theorem hasLeadingZero_eq_false {cs : List Char} {n : Nat} (digits : IsDigits 10 cs n) :
    hasLeadingZero cs = false ↔ (cs.head? = some '0' → cs = ['0']) := by
  have all_digits := digits.all_isDigit
  unfold hasLeadingZero
  split
  · rename_i rest
    have : rest.all Char.isDigit = true := by simpa [Char.isDigit] using all_digits
    simp [this]
  · rename_i other
    refine iff_of_true rfl fun head => ?_
    obtain ⟨rest, rfl⟩ := List.head?_eq_some_iff.mp head
    exact (other rest rfl).elim

theorem readBased?_eq_some {n : Nat} {cs : List Char} : readBased? cs = some n ↔ Numeral cs n := by
  unfold readBased?
  split
  · rw [readDigits?_eq_some (by decide)]
    refine ⟨.hexadecimal, ?_⟩
    rintro (⟨_, lead⟩ | digits | _ | _)
    · cases lead rfl
    · exact digits
  · rw [readDigits?_eq_some (by decide)]
    refine ⟨.octal, ?_⟩
    rintro (⟨_, lead⟩ | _ | digits | _)
    · cases lead rfl
    · exact digits
  · rw [readDigits?_eq_some (by decide)]
    refine ⟨.binary, ?_⟩
    rintro (⟨_, lead⟩ | _ | _ | digits)
    · cases lead rfl
    · exact digits
  · rename_i noHex noOctal noBinary
    constructor
    · intro read
      split_ifs at read with leading
      have digits := (readDigits?_eq_some (by decide)).mp read
      exact .decimal digits ((hasLeadingZero_eq_false digits).mp (by simpa using leading))
    · rintro (⟨digits, lead⟩ | _ | _ | _)
      · rw [(hasLeadingZero_eq_false digits).mpr lead]
        exact (readDigits?_eq_some (by decide)).mpr digits
      · exact absurd rfl (noHex _)
      · exact absurd rfl (noOctal _)
      · exact absurd rfl (noBinary _)

theorem Numeral.head_ne_plus {cs : List Char} {n : Nat} (numeral : Numeral cs n) :
    cs.head? ≠ some '+' := by
  rintro plus
  obtain ⟨rest, rfl⟩ := List.head?_eq_some_iff.mp plus
  obtain ⟨digits, _⟩ := numeral
  cases List.all_eq_true.mp digits.all_isDigit '+' List.mem_cons_self

theorem readNat?_eq_some {s : String} {n : Nat} : readNat? s = some n ↔ IsNatural s n := by
  unfold readNat? IsNatural
  generalize s.toList = cs
  split
  · rename_i digits
    rw [readBased?_eq_some]
    constructor
    · exact fun numeral => .inr ⟨_, rfl, numeral⟩
    · rintro (numeral | ⟨_, ⟨⟩, numeral⟩)
      · exact absurd rfl numeral.head_ne_plus
      · exact numeral
  · rename_i other
    rw [readBased?_eq_some]
    constructor
    · exact .inl
    · rintro (numeral | ⟨_, rfl, _⟩)
      · exact numeral
      · exact (other _ rfl).elim

/-! Values of nodes. -/

/-- The scalar is read for its form: a plain one, or a literal one with the tag of the type. -/
def Scalar.ShowsForm (s : Scalar) (tag : String) : Prop :=
  s.style = .plain ∨ s.style = .literal ∧ s.tag = some tag

def nullWords : List String := ["~", "null", "Null", "NULL"]

namespace Node

/-- Any scalar is a text, as it is written. -/
def IsText (node : Node) (text : String) : Prop :=
  ∃ slot s, node = .scalar slot s ∧ s.text = text

inductive IsBool : Node → Bool → Prop where
  | true {slot : Option Nat} {s : Scalar} (form : s.ShowsForm boolTag)
    (word : s.text ∈ ["true", "True", "TRUE"]) : IsBool (.scalar slot s) true
  | false {slot : Option Nat} {s : Scalar} (form : s.ShowsForm boolTag)
    (word : s.text ∈ ["false", "False", "FALSE"]) : IsBool (.scalar slot s) false

/-- A whole number below a bound, without a minus sign. -/
def IsWord (bound : Nat) (node : Node) (n : Nat) : Prop :=
  ∃ slot s, node = .scalar slot s ∧ s.ShowsForm intTag ∧ IsNatural s.text n ∧ n < bound

/-- A plain scalar that is null, or that is said to be by its tag. -/
def ClaimsNull (node : Node) : Prop :=
  ∃ slot s, node = .scalar slot s ∧ s.style = .plain ∧
    (s.tag = none ∧ s.text ∈ "" :: nullWords ∨ s.tag = some nullTag)

/-- Null, or a value. What has the tag of null has to be written as null. -/
inductive OrNull {α : Type} (Reads : Node → α → Prop) : Node → Option α → Prop where
  | null {slot : Option Nat} {s : Scalar} (plain : s.style = .plain)
    (word : s.tag = none ∧ s.text ∈ "" :: nullWords ∨ s.tag = some nullTag ∧ s.text ∈ nullWords) :
    OrNull Reads (.scalar slot s) none
  | value {node : Node} {a : α} (other : ¬ node.ClaimsNull) (reads : Reads node a) :
    OrNull Reads node (some a)

end Node

theorem hasForm_iff {s : Scalar} {tag : String} : s.hasForm tag = true ↔ s.ShowsForm tag := by
  simp [Scalar.hasForm, Scalar.ShowsForm]

theorem readBool?_eq_true {s : String} :
    readBool? s = some true ↔ s ∈ ["true", "True", "TRUE"] := by
  grind [readBool?]

theorem readBool?_eq_false {s : String} :
    readBool? s = some false ↔ s ∈ ["false", "False", "FALSE"] := by
  have apart : s ∈ ["false", "False", "FALSE"] → s ∉ ["true", "True", "TRUE"] := by
    simp only [List.mem_cons, List.not_mem_nil, or_false]
    rintro (rfl | rfl | rfl) <;> decide
  simp only [← readBool?_eq_true] at apart
  grind [readBool?]

theorem isNull_iff {s : String} : isNull s = true ↔ s ∈ nullWords := by
  simp [isNull, nullWords, or_assoc]

namespace Place

variable {α : Type} {p : Place}

theorem complain_ne_ok {expected : Expected} {a : α} : p.complain expected ≠ .ok a := nofun

theorem text_eq_ok {text : String} : p.text = .ok text ↔ p.target.IsText text := by
  unfold Place.text Node.IsText
  split
  · simp_all
  · rename_i other
    refine iff_of_false complain_ne_ok ?_
    rintro ⟨slot, s, scalar, -⟩
    exact other slot s scalar

theorem readForm_eq_ok {tag : String} {read : String → Option α} {expected : Expected} {a : α} :
    p.readForm tag read expected = .ok a ↔
      ∃ slot s, p.target = .scalar slot s ∧ s.ShowsForm tag ∧ read s.text = some a := by
  unfold readForm
  split
  · rename_i slot s scalar
    have form : (if s.hasForm tag then read s.text else none) = some a ↔
        s.ShowsForm tag ∧ read s.text = some a := by
      rw [Option.ite_none_right_eq_some, hasForm_iff]
    simp only [scalar, Node.scalar.injEq, ↓existsAndEq, true_and, ← form]
    split
    · rename_i value found
      rw [found, Except.ok.injEq, Option.some.injEq]
    · rename_i nothing
      rw [nothing]
      exact iff_of_false complain_ne_ok nofun
  · rename_i other
    refine iff_of_false complain_ne_ok ?_
    rintro ⟨slot, s, scalar, -⟩
    exact other slot s scalar

theorem bool_eq_ok {b : Bool} : p.bool = .ok b ↔ p.target.IsBool b := by
  refine readForm_eq_ok.trans ⟨?_, ?_⟩
  · rintro ⟨slot, s, scalar, form, word⟩
    rw [scalar]
    cases b with
    | true => exact .true form (readBool?_eq_true.mp word)
    | false => exact .false form (readBool?_eq_false.mp word)
  · generalize p.target = node
    rintro (⟨form, word⟩ | ⟨form, word⟩)
    · exact ⟨_, _, rfl, form, readBool?_eq_true.mpr word⟩
    · exact ⟨_, _, rfl, form, readBool?_eq_false.mpr word⟩

theorem word_eq_ok {expected : Expected} {w : UInt64} :
    p.word expected = .ok w ↔ p.target.IsWord (2 ^ 64) w.toNat := by
  refine readForm_eq_ok.trans (exists_congr fun slot => exists_congr fun s =>
    and_congr_right fun _ => and_congr_right fun _ => ?_)
  simp only [Option.bind_eq_some_iff, readNat?_eq_some, Option.ite_none_right_eq_some,
    Option.some.injEq]
  constructor
  · rintro ⟨n, natural, small, rfl⟩
    have value : n.toUInt64.toNat = n := UInt64.toNat_ofNat_of_lt' small
    rw [value]
    exact ⟨natural, small⟩
  · rintro ⟨natural, small⟩
    exact ⟨_, natural, small, UInt64.ofNat_toNat⟩

theorem word32_eq_ok {w : UInt32} : p.word32 = .ok w ↔ p.target.IsWord (2 ^ 32) w.toNat := by
  unfold word32
  rw [bind_eq_ok]
  constructor
  · rintro ⟨n, read, narrowed⟩
    split at narrowed
    case isFalse => cases narrowed
    rename_i small
    obtain rfl := Except.ok.inj narrowed
    obtain ⟨slot, s, scalar, form, natural, _⟩ := word_eq_ok.mp read
    have small : n.toNat < 2 ^ 32 := UInt64.lt_iff_toNat_lt.mp small
    have value : n.toUInt32.toNat = n.toNat := by
      rw [UInt64.toNat_toUInt32, Nat.mod_eq_of_lt small]
    exact ⟨slot, s, scalar, form, value ▸ natural, value ▸ small⟩
  · rintro ⟨slot, s, scalar, form, natural, small⟩
    have value : w.toUInt64.toNat = w.toNat := UInt32.toNat_toUInt64 w
    refine ⟨w.toUInt64, word_eq_ok.mpr ⟨slot, s, scalar, form, ?_, UInt64.toNat_lt _⟩, ?_⟩
    · rwa [value]
    · rw [if_pos (UInt64.lt_iff_toNat_lt.mpr (value ▸ small))]
      simp

theorem option_eq_ok {read : Place → Except Mismatch α} {Reads : Node → α → Prop} {o : Option α}
    (reads : ∀ a, read p = .ok a ↔ Reads p.target a) :
    p.option read = .ok o ↔ p.target.OrNull Reads o := by
  -- the scalars that claim to be null are told apart first, and all others are read
  have present (other : ¬ p.target.ClaimsNull) :
      (read p).map some = .ok o ↔ p.target.OrNull Reads o := by
    rw [map_eq_ok]
    constructor
    · rintro ⟨a, read_, rfl⟩
      exact .value other ((reads a).mp read_)
    · generalize p.target = node at other reads
      rintro (⟨plain, word⟩ | ⟨_, value⟩)
      · exact absurd ⟨_, _, rfl, plain, word.imp id And.left⟩ other
      · exact ⟨_, (reads _).mpr value, rfl⟩
  unfold Place.option
  split
  case h_2 no_scalar => exact present fun ⟨slot, s, scalar, _⟩ => no_scalar slot s scalar
  rename_i slot s scalar
  rw [scalar] at present ⊢
  by_cases plain : s.style = .plain
  case neg =>
    rw [if_pos (by simpa using plain)]
    exact present (by simp [Node.ClaimsNull, plain])
  rw [if_neg (by simpa using plain)]
  have claims (word : s.tag = none ∧ s.text ∈ "" :: nullWords ∨ s.tag = some nullTag) :
      (Node.scalar slot s).ClaimsNull := ⟨slot, s, rfl, plain, word⟩
  have absent (word : s.tag = none ∧ s.text ∈ "" :: nullWords ∨
      s.tag = some nullTag ∧ s.text ∈ nullWords) :
      (.ok none : Except Mismatch (Option α)) = .ok o ↔ (Node.scalar slot s).OrNull Reads o := by
    constructor
    · rintro ⟨⟩
      exact .null plain word
    · rintro (_ | ⟨other, _⟩)
      · rfl
      · exact absurd (claims (word.imp id And.left)) other
  have words : (s.text.isEmpty || isNull s.text) = true ↔ s.text ∈ "" :: nullWords := by
    simp [isNull_iff]
  split
  · rename_i untagged
    split_ifs with word
    · exact absent (.inl ⟨untagged, words.mp word⟩)
    · exact present (by simpa [Node.ClaimsNull, plain, untagged] using mt words.mpr word)
  · rename_i tag tagged
    split_ifs with other word
    · exact present (by simpa [Node.ClaimsNull, plain, tagged] using other)
    · have tagged : s.tag = some nullTag := by simpa [tagged] using other
      exact absent (.inr ⟨tagged, isNull_iff.mp word⟩)
    · have tagged : s.tag = some nullTag := by simpa [tagged] using other
      refine iff_of_false nofun ?_
      rintro (⟨_, ⟨untagged, _⟩ | ⟨_, null⟩⟩ | ⟨other, _⟩)
      · simp [tagged] at untagged
      · exact word (isNull_iff.mpr null)
      · exact other (claims (.inr tagged))

end Place

end HedgedStore.Yaml

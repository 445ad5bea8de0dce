import HedgedStore.Config.Placeholder
import Mathlib.Data.List.Forall2
import Mathlib.Data.List.TakeWhile

/-! What becomes of the placeholders of a text. The grammar of a placeholder is told on its own, and
so is the one way to part a text into placeholders and what stands between them: each placeholder
begins where first one can begin behind the one before it. Expansion puts in the place of each what
it means, and leaves all else as it is. -/
namespace HedgedStore

/-! The grammar. -/

def IsCapital (c : Char) : Prop := 'A' ≤ c ∧ c ≤ 'Z'

/-- A capital letter or an underscore, and then any of these and digits. -/
def IsVariableName : List Char → Prop
  | [] => False
  | first :: rest =>
    (IsCapital first ∨ first = '_') ∧
      ∀ c ∈ rest, IsCapital c ∨ c = '_' ∨ ('0' ≤ c ∧ c ≤ '9')

namespace Placeholder

/-- The name is one of a variable, and the default does not hold the brace that ends it. -/
structure WellFormed (p : Placeholder) : Prop where
  name : IsVariableName p.name.toList
  default : ∀ text, p.default = some text → '\x7d' ∉ text.toList

/-- What it gives way to: the value of its variable, or else its default, or else itself. -/
inductive Means (assigned : String → Option Bytes) (p : Placeholder) : List Char → Prop where
  | value {text : String} (set : assigned p.name = some text.toUTF8.data.toList) :
    Means assigned p text.toList
  | default {text : String}
      (unset : ∀ other : String, assigned p.name ≠ some other.toUTF8.data.toList)
      (given : p.default = some text) : Means assigned p text.toList
  | itself (unset : ∀ other : String, assigned p.name ≠ some other.toUTF8.data.toList)
      (bare : p.default = none) : Means assigned p p.source

/-! One placeholder. -/

theorem isNameStart_iff {c : Char} : isNameStart c = true ↔ IsCapital c ∨ c = '_' := by
  have capital : c.isUpper = true ↔ IsCapital c := decide_eq_true_iff
  simp [isNameStart, capital]

theorem isNameChar_iff {c : Char} :
    isNameChar c = true ↔ IsCapital c ∨ c = '_' ∨ ('0' ≤ c ∧ c ≤ '9') := by
  simp [isNameChar, isNameStart_iff, Char.isDigit, Char.le_def, or_assoc]

theorem isVariableName_iff {name : List Char} :
    IsVariableName name ↔ name.head?.any isNameStart = true ∧ ∀ c ∈ name, isNameChar c = true := by
  cases name with
  | nil => simp [IsVariableName]
  | cons first rest =>
    have starts : isNameStart first = true → isNameChar first = true := fun start => by
      simp [isNameChar, start]
    simp only [IsVariableName, ← isNameStart_iff, ← isNameChar_iff, List.head?_cons,
      Option.any_some, List.forall_mem_cons]
    exact ⟨fun ⟨start, others⟩ => ⟨start, starts start, others⟩,
      fun ⟨start, _, others⟩ => ⟨start, others⟩⟩

/-- A name ends where something stands that is no part of one. -/
theorem span_name (rest : List Char) {name : List Char} (named : IsVariableName name)
    (ends : rest.head?.all (!isNameChar ·) = true) :
    (name ++ rest).takeWhile isNameChar = name ∧ (name ++ rest).dropWhile isNameChar = rest := by
  have all_name := (isVariableName_iff.mp named).2
  rw [List.takeWhile_append_of_pos all_name, List.dropWhile_append_of_pos all_name]
  cases rest with
  | nil => simp
  | cons c rest =>
    have other : isNameChar c = false := by simpa using ends
    simp [other]

/-- A text ends at the first brace, and one that holds a brace has one behind that. -/
theorem span_brace {rest : List Char} (held : '\x7d' ∈ rest) :
    ∃ tail, rest.takeWhile (· != '\x7d') ++ '\x7d' :: tail = rest := by
  induction rest with
  | nil => cases held
  | cons c rest ih =>
    by_cases brace : c = '\x7d'
    · exact ⟨rest, by simp [brace]⟩
    · have ⟨tail, parts⟩ := ih ((List.mem_cons.mp held).resolve_left (Ne.symm brace))
      exact ⟨tail, by simp [brace, parts]⟩

theorem wellFormed_of_atStart {text : List Char} {p : Placeholder}
    (found : atStart? text = some p) : p.WellFormed ∧ p.source <+: text := by
  unfold atStart? at found
  split at found
  case h_2 => cases found
  rename_i cs
  -- the name, and then the brace, or the default and the brace
  have parts := List.takeWhile_append_dropWhile (p := isNameChar) (l := cs)
  have named (started : (cs.takeWhile isNameChar).head?.any isNameStart = true) :
      IsVariableName (cs.takeWhile isNameChar) := isVariableName_iff.mpr
    ⟨started, fun c member => List.mem_takeWhile_imp member⟩
  dsimp only at found
  generalize cs.takeWhile isNameChar = name at found parts named
  generalize cs.dropWhile isNameChar = behind at found parts
  split at found
  case isFalse => cases found
  rename_i started
  split at found
  · rename_i rest
    obtain rfl := Option.some.inj found
    exact ⟨⟨by simpa using named started, nofun⟩, rest, by simp [source, ← parts]⟩
  · rename_i rest
    split at found
    case isFalse => cases found
    rename_i held
    have ⟨tail, ends⟩ := span_brace (List.contains_iff_mem.mp held)
    obtain rfl := Option.some.inj found
    refine ⟨⟨by simpa using named started, ?_⟩, tail, by simp [source, ← parts, ends]⟩
    rintro text ⟨⟩
    rw [String.toList_ofList]
    intro brace
    simpa using List.mem_takeWhile_imp brace
  · cases found

theorem atStart_source {p : Placeholder} (formed : p.WellFormed) (rest : List Char) :
    atStart? (p.source ++ rest) = some p := by
  have started := (isVariableName_iff.mp formed.name).1
  obtain ⟨name, given⟩ := p
  cases given with
  | none =>
    have ⟨taken, left⟩ := span_name ('\x7d' :: rest) formed.name rfl
    simp [source, atStart?, taken, left, started]
  | some text =>
    have ⟨taken, left⟩ := span_name (':' :: '-' :: (text.toList ++ '\x7d' :: rest))
      formed.name rfl
    have clear : ∀ c ∈ text.toList, (c != '\x7d') = true := fun c member => by
      simpa using fun brace : c = '\x7d' => formed.default text rfl (brace ▸ member)
    simp [source, atStart?, taken, left, started, List.takeWhile_append_of_pos clear]

theorem atStart_eq_some {text : List Char} {p : Placeholder} :
    atStart? text = some p ↔ p.WellFormed ∧ p.source <+: text :=
  ⟨wellFormed_of_atStart, fun ⟨formed, rest, begins⟩ => begins ▸ atStart_source formed rest⟩

theorem source_ne_nil (p : Placeholder) : p.source ≠ [] := by
  simp [source]

/-! What it means. -/

theorem ofBytes_eq_some {assigned : String → Option Bytes} {name text : String} :
    Environment.ofBytes assigned name = some text ↔
      assigned name = some text.toUTF8.data.toList := by
  simp only [Environment.ofBytes, Option.bind_eq_some_iff]
  constructor
  · rintro ⟨bytes, set, read⟩
    unfold String.fromUTF8? at read
    split at read
    · obtain rfl := Option.some.inj read
      exact set
    · cases read
  · intro set
    have bytes : (⟨text.toUTF8.data.toList.toArray⟩ : ByteArray) = text.toUTF8 := by simp
    exact ⟨_, set, by rw [bytes]; exact dif_pos text.isValidUTF8⟩

theorem means_value (assigned : String → Option Bytes) (p : Placeholder) :
    p.Means assigned (p.value (.ofBytes assigned)) := by
  cases set : Environment.ofBytes assigned p.name with
  | some text => simpa [value, set] using Means.value (ofBytes_eq_some.mp set)
  | none =>
    have unset (other : String) : assigned p.name ≠ some other.toUTF8.data.toList := fun held => by
      simp [ofBytes_eq_some.mpr held] at set
    cases given : p.default with
    | some text => simpa [value, set, given] using Means.default unset given
    | none => simpa [value, set, given] using Means.itself unset given

end Placeholder

/-! The parting of a text. -/

/-- A placeholder stands at the head of the text. -/
def Begins (text : List Char) : Prop := ∃ p : Placeholder, p.WellFormed ∧ p.source <+: text

/-- No placeholder begins at one of the characters, where `rest` stands behind them. -/
def Clear (chars rest : List Char) : Prop := ∀ j < chars.length, ¬ Begins ((chars ++ rest).drop j)

/-- The placeholders of a text, each with the characters before it, and the characters behind the
last of them. -/
inductive Parted : List Char → List (List Char × Placeholder) → List Char → Prop where
  | last {text : List Char} (clear : Clear text []) : Parted text [] text
  | next {before rest last : List Char} {p : Placeholder} {parts : List (List Char × Placeholder)}
    (clear : Clear before (p.source ++ rest)) (formed : p.WellFormed)
    (parted : Parted rest parts last) :
    Parted (before ++ (p.source ++ rest)) ((before, p) :: parts) last

theorem clear_nil (rest : List Char) : Clear [] rest := nofun

theorem clear_cons {c : Char} {chars rest : List Char} :
    Clear (c :: chars) rest ↔ ¬ Begins (c :: (chars ++ rest)) ∧ Clear chars rest := by
  constructor
  · intro clear
    exact ⟨clear 0 (Nat.succ_pos _), fun j bound => clear (j + 1) (Nat.succ_lt_succ bound)⟩
  · rintro ⟨head, tail⟩ (_ | j) bound
    · exact head
    · exact tail j (Nat.lt_of_succ_lt_succ bound)

theorem begins_source {p : Placeholder} (formed : p.WellFormed) (rest : List Char) :
    Begins (p.source ++ rest) :=
  ⟨p, formed, rest, rfl⟩

theorem begins_iff {text : List Char} : Begins text ↔ (Placeholder.atStart? text).isSome := by
  simp [Begins, Option.isSome_iff_exists, Placeholder.atStart_eq_some]

theorem not_begins_iff {text : List Char} : ¬ Begins text ↔ Placeholder.atStart? text = none := by
  simp [begins_iff]

namespace Parted

variable {text last last' : List Char} {parts parts' : List (List Char × Placeholder)}

theorem cons {c : Char} (plain : ¬ Begins (c :: text)) (parted : Parted text parts last) :
    ∃ parts last, Parted (c :: text) parts last := by
  cases parted with
  | last clear => exact ⟨_, _, last (clear_cons.mpr ⟨by simpa using plain, clear⟩)⟩
  | next clear formed parted => exact ⟨_, _, next (clear_cons.mpr ⟨plain, clear⟩) formed parted⟩

/-- Every text can be parted. -/
theorem exists_of_length (n : Nat) (text : List Char) (bound : text.length ≤ n) :
    ∃ parts last, Parted text parts last := by
  -- by the length of the text, since a placeholder takes more than one character of it
  induction n generalizing text with
  | zero =>
    obtain rfl := List.length_eq_zero_iff.mp (Nat.le_zero.mp bound)
    exact ⟨_, _, last (clear_nil _)⟩
  | succ n ih =>
    by_cases begins : Begins text
    · obtain ⟨p, formed, rest, rfl⟩ := begins
      have := List.length_pos_iff.mpr p.source_ne_nil
      have ⟨parts, ends, parted⟩ := ih rest (by rw [List.length_append] at bound; omega)
      exact ⟨_, _, next (clear_nil _) formed parted⟩
    · match text with
      | [] => exact ⟨_, _, last (clear_nil _)⟩
      | c :: cs =>
        have ⟨parts, ends, parted⟩ := ih cs (Nat.le_of_succ_le_succ bound)
        exact parted.cons begins

/-- Behind characters where none begins, the next placeholder is not further than the one given. -/
theorem length_le {before before' rest rest' : List Char} (clear : Clear before' rest')
    (begins : Begins rest) (same : before ++ rest = before' ++ rest') :
    before'.length ≤ before.length := by
  by_contra shorter
  refine clear before.length (Nat.lt_of_not_le shorter) ?_
  rwa [← same, List.drop_left]

theorem unique (one : Parted text parts last) (other : Parted text parts' last') :
    parts' = parts ∧ last' = last := by
  induction one generalizing parts' last' with
  | last clear =>
    cases other with
    | last _ => exact ⟨rfl, rfl⟩
    | @next before rest _ p _ _ formed _ =>
      have short := length_le clear (begins_source formed rest) (List.append_nil _).symm
      have := List.length_pos_iff.mpr p.source_ne_nil
      simp only [List.length_append] at short
      omega
  | @next before rest last p parts clear formed parted ih =>
    generalize same : before ++ (p.source ++ rest) = text at other
    cases other with
    | last clear' =>
      -- no placeholder would begin where the first one does
      have short := length_le clear' (begins_source formed rest) (by rw [same, List.append_nil])
      have := List.length_pos_iff.mpr p.source_ne_nil
      rw [← same] at short
      simp only [List.length_append] at short
      omega
    | @next before' rest' _ p' _ clear' formed' parted' =>
      -- neither begins further right than the other
      obtain ⟨rfl, follows⟩ := List.append_inj same <| Nat.le_antisymm
        (length_le clear (begins_source formed' rest') same.symm)
        (length_le clear' (begins_source formed rest) same)
      have found := Placeholder.atStart_source formed rest
      rw [follows, Placeholder.atStart_source formed' rest'] at found
      obtain rfl := Option.some.inj found
      obtain rfl := List.append_cancel_left follows
      obtain ⟨rfl, rfl⟩ := ih parted'
      exact ⟨rfl, rfl⟩

end Parted

/-! Splitting finds the parting. -/
namespace TextPart

theorem split_skip (skipped : Nat) (text : List Char) :
    split skipped text = split 0 (text.drop skipped) := by
  induction text generalizing skipped with
  | nil => cases skipped <;> rfl
  | cons c text ih =>
    cases skipped with
    | zero => rfl
    | succ skipped => exact ih skipped

theorem split_source {p : Placeholder} (formed : p.WellFormed) (rest : List Char) :
    split 0 (p.source ++ rest) = placeholder p :: split 0 rest := by
  have found := Placeholder.atStart_source formed rest
  cases source : p.source with
  | nil => exact absurd source p.source_ne_nil
  | cons c cs =>
    rw [source] at found
    simp only [List.cons_append] at found ⊢
    simp [split, found, split_skip (cs.length), source]

theorem split_clear {chars rest : List Char} (clear : Clear chars rest) :
    split 0 (chars ++ rest) = chars.map char ++ split 0 rest := by
  induction chars with
  | nil => rfl
  | cons c chars ih =>
    have ⟨plain, clear⟩ := clear_cons.mp clear
    simp [split, not_begins_iff.mp plain, ih clear]

theorem split_parted {text last : List Char} {parts : List (List Char × Placeholder)}
    (parted : Parted text parts last) :
    split 0 text =
      parts.flatMap (fun part => part.1.map char ++ [placeholder part.2]) ++ last.map char := by
  induction parted with
  | @last text clear => simpa [split] using split_clear clear
  | next clear formed parted ih => rw [split_clear clear, split_source formed, ih]; simp

end TextPart

theorem expand_parted (environment : Environment) {s : String} {last : List Char}
    {parts : List (List Char × Placeholder)} (parted : Parted s.toList parts last) :
    (expand environment s).toList =
      parts.flatMap (fun part => part.1 ++ part.2.value environment) ++ last := by
  simp [expand, TextPart.split_parted parted, List.flatMap_assoc, List.flatMap_map,
    TextPart.value]

/-- A text has one parting into placeholders and what stands between them, each as far to the left
as any can begin. Its expansion has what each of them means in its place; that is not looked at
again, and what stands between them is as it was. -/
theorem expand_replaces_placeholders (assigned : String → Option Bytes) (s : String) :
    ∃ parts last, Parted s.toList parts last ∧
      (∀ parts' last', Parted s.toList parts' last' → parts' = parts ∧ last' = last) ∧
      ∃ values, List.Forall₂ (fun part value => part.2.Means assigned value) parts values ∧
        (expand (.ofBytes assigned) s).toList =
          (List.zipWith (fun part value => part.1 ++ value) parts values).flatten ++ last := by
  have ⟨parts, last, parted⟩ := Parted.exists_of_length _ s.toList le_rfl
  refine ⟨parts, last, parted, fun _ _ => parted.unique,
    parts.map fun part => part.2.value (.ofBytes assigned), ?_, ?_⟩
  · rw [List.forall₂_map_right_iff]
    exact List.forall₂_same.mpr fun part _ => part.2.means_value assigned
  · rw [expand_parted _ parted, List.flatMap_def]
    simp [List.zipWith_map_right, List.zipWith_self]

end HedgedStore
